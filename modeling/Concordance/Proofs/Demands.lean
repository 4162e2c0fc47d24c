import Mathlib
import Concordance.Descriptor.File
import Concordance.Proofs.Names

/-!
What is asked of a descriptor, and how reading ends where it is not met.

* `Demand` : one thing that is asked of a value: it has the shape that its place asks for, it can be
  looked up, it can be written as a text. Only the first is checked; the others are taken for
  granted. `Descriptor.demands` : all demands on a tree, in the order in which it is read.
* `Demand.Settles ds a` : the first demand in the list that is not met decides how `a` ends.
  `Demand.Settles.bind` and `Demand.Settles.mapM` : so it is of one reading after another, and of a
  list of readings.
* `Descriptor.parse_settles` : so it is of a descriptor.
* `Descriptor.escapes_iff` : a malformed tree is reported unless the first demand that it does not
  meet is taken for granted, and a file unless it is no text or breaks the reader of its notation.
* `Descriptor.parse_escapes_listed` : a node whose kind is a list is malformed, and not reported.
-/

namespace Concordance

/-! ### Demands -/

/-- What is asked of a value in a descriptor. -/
inductive Demand where
  /-- The value has the shape that its place asks for. -/
  | shape (holds : Bool)
  /-- The value can be looked up, or be in a set. -/
  | hashable (v : Value)
  /-- The value can be written as a text. -/
  | spellable (v : Value)

namespace Demand

def isMet : Demand → Bool
  | shape holds => holds
  | hashable v => v.hashable
  | spellable v => v.spellableIn []

/-- Whether it is checked, so that a value that does not meet the demand is reported. -/
def isChecked : Demand → Bool
  | shape _ => true
  | hashable _ | spellable _ => false

/-- The faults of a demand that is not met. -/
inductive Raises : Demand → Fault → Prop
  | shape {holds : Bool} {why : DescriptorFault} : Raises (.shape holds) (.descriptor why)
  | hashable {v : Value} : Raises (.hashable v) .illTyped
  | spellable {v : Value} : Raises (.spellable v) .badValue

lemma Raises.isChecked_iff {d : Demand} {e : Fault} (h : d.Raises e) :
    d.isChecked = true ↔ ∃ why, e = .descriptor why := by
  cases h with
  | @shape _ why => exact iff_of_true rfl ⟨why, rfl⟩
  | hashable | spellable => exact iff_of_false Bool.false_ne_true nofun

/-- The first demand that is not met. -/
def firstUnmet (ds : List Demand) : Option Demand := ds.find? fun d => !d.isMet

lemma firstUnmet_eq_none {ds : List Demand} : firstUnmet ds = none ↔ ∀ d ∈ ds, d.isMet = true := by
  simp [firstUnmet]

/-- How reading ends, by the first demand that is not met. -/
inductive Ending {α : Type} : Option Demand → Answer α → Prop
  | read {a : α} : Ending none (.ok a)
  | failed {d : Demand} {e : Fault} (h : d.Raises e) : Ending (some d) (.error e)

/-- The first demand that is not met decides how reading ends. -/
def Settles {α : Type} (ds : List Demand) (a : Answer α) : Prop := Ending (firstUnmet ds) a

namespace Settles

variable {α β : Type} {ds : List Demand} {a : Answer α} {x : α}

lemma pure : Settles [] (.ok x) := .read

lemma refuse {why : DescriptorFault} :
    Settles [.shape false] (Descriptor.refuse why : Answer α) := .failed .shape

/-- A demand that is met before all others. -/
lemma cons {d : Demand} (hd : d.isMet = true) (h : Settles ds a) : Settles (d :: ds) a := by
  have hfirst : firstUnmet (d :: ds) = firstUnmet ds := by
    rw [firstUnmet, firstUnmet, List.find?_cons_of_neg (by simp [hd])]
  rwa [Settles, hfirst]

/-- A demand that is not met hides all that come after it. -/
lemma head {d : Demand} {e : Fault} (hd : d.isMet = false) (he : d.Raises e) :
    Settles (d :: ds) (.error e : Answer α) := by
  have hfirst : firstUnmet (d :: ds) = some d := by
    rw [firstUnmet, List.find?_cons_of_pos (by simp [hd])]
  rw [Settles, hfirst]
  exact .failed he

/-- One reading after another: the demands of the first come first. -/
lemma bind {f : α → Answer β} {r : List Demand} (ha : Settles ds a)
    (hf : ∀ x, a = .ok x → Settles r (f x)) : Settles (ds ++ r) (a >>= f) := by
  unfold Settles firstUnmet at *
  rw [List.find?_append]
  generalize ds.find? (fun d => !d.isMet) = first at ha
  cases ha with
  | read => exact hf _ rfl
  | failed h => exact .failed h

/-- A list of readings: the demands of one member after another. -/
lemma mapM {f : α → Answer β} {demands : α → List Demand} {xs : List α}
    (h : ∀ x ∈ xs, Settles (demands x) (f x)) : Settles (xs.flatMap demands) (xs.mapM f) := by
  induction xs with
  | nil => exact .pure
  | cons x xs ih =>
      obtain ⟨hx, hxs⟩ := List.forall_mem_cons.mp h
      rw [List.mapM_cons, List.flatMap_cons]
      refine hx.bind fun y _ => ?_
      rw [← List.append_nil (xs.flatMap demands)]
      exact (ih hxs).bind fun ys _ => .pure

lemma ok_iff (h : Settles ds a) : (∃ x, a = .ok x) ↔ ∀ d ∈ ds, d.isMet = true := by
  rw [← firstUnmet_eq_none]
  unfold Settles at h
  generalize firstUnmet ds = first at h ⊢
  cases h with
  | @read x => exact iff_of_true ⟨x, rfl⟩ rfl
  | failed _ => exact iff_of_false nofun nofun

/-- The fault is of the first demand that is not met. -/
lemma error (h : Settles ds a) {e : Fault} (he : a = .error e) :
    ∃ d, firstUnmet ds = some d ∧ d.Raises e := by
  unfold Settles at h
  generalize firstUnmet ds = first at h ⊢
  cases h with
  | read => cases he
  | @failed d _ hd =>
      cases he
      exact ⟨d, rfl, hd⟩

end Settles
end Demand

namespace Descriptor

open Demand (Settles firstUnmet)

variable {source key : String} {es : Entries} {v : Value}

/-! ### The demands on an entry -/

/-- Under a key there is nothing, or a value of a class. -/
def optional (isOne : Value → Bool) (es : Entries) (key : String) : Demand :=
  .shape (match Value.field es key with
    | .null => true
    | v => isOne v)

def isList : Value → Bool
  | .list .. => true
  | _ => false

/-- A text, or nothing. -/
def textual (es : Entries) (key : String) : Demand := optional Value.isText es key

/-- A list, or nothing. -/
def listed (es : Entries) (key : String) : Demand := optional isList es key

/-- A mapping, or nothing. -/
def mapped (es : Entries) (key : String) : Demand := optional Value.isMapping es key

/-- The demand on what `displayAt` writes. -/
def displayed (es : Entries) (key : String) : Demand :=
  .spellable ((Value.field? es key).getD (.text ""))

/-- The demand on what `presentAt` writes. -/
def present (es : Entries) (key : String) : Demand :=
  .spellable ((Value.field es key).orElse (.text ""))

/-- The members of the list under a key. -/
def members (es : Entries) (key : String) : List Value :=
  match Value.field es key with
  | .list xs _ => xs
  | _ => []

/-- The members of the list under a key are texts. -/
def texts (es : Entries) (key : String) : List Demand :=
  [listed es key, .shape ((members es key).all Value.isText)]

/-- The keys of the references that a node of a kind carries. -/
def references? : Value → Option (List String)
  | .text "node" => some []
  | .text "rule_set" => some ["rule_flow_group"]
  | .text "work_item" => some ["work_name"]
  | .text "sub_process" => some ["process_id", "process_name"]
  | _ => none

/-- The demands on a node: its kind is known, id and name can be written, references are texts. -/
def nodeDemands (v : Value) : List Demand :=
  match v.entries? with
  | none => [.shape false]
  | some es =>
    let kind := (Value.field? es "kind").getD (.text "node")
    .hashable kind :: match references? kind with
      | some keys => displayed es "id" :: displayed es "name" :: keys.map (textual es)
      | none => [.spellable kind, .shape false]

/-- The demands on a variable. -/
def variableDemands (v : Value) : List Demand :=
  match entriesWith? v "name" with
  | none => [.shape false]
  | some es => [textual es "item_subject_ref", present es "name", textual es "type"]

/-- The demands on an item definition. -/
def itemDemands (v : Value) : List Demand :=
  match entriesWith? v "id" with
  | none => [.shape false]
  | some es => [present es "id", textual es "structure_ref"]

/-- The demands on a global. -/
def globalDemands (e : Value × Value) : List Demand :=
  [.spellable e.1, .shape (e.2.isText && e.2.truthy)]

/-- The demands on a message; a bare text is the id. -/
def messageDemands (v : Value) : List Demand :=
  match entriesWith? (if v.isText then .dict [(.text "id", v)] else v) "id" with
  | none => [.shape false]
  | some es => [present es "id", present es "name", present es "type"]

/-- The demands on an entry of the metadata bag: what stands in a list goes into a set. -/
def metadataDemands (e : Value × Value) : List Demand :=
  .spellable e.1 :: match e.2 with
    | .list xs _ => xs.map .hashable
    | _ => []

/-- All demands on a descriptor, in the order in which it is read. -/
def demands (data : Value) : List Demand :=
  match data.entries? with
  | none => [.shape false]
  | some es =>
    let bag := (Value.field es "metadata").orElse (.dict [])
    [.shape (Value.field es "id").truthy, present es "id", present es "name"] ++
    .shape bag.isMapping :: bag.fields.flatMap metadataDemands ++
    mapped es "globals" :: (Value.field es "globals").fields.flatMap globalDemands ++
    texts es "imports" ++ texts es "function_imports" ++
    listed es "nodes" :: (members es "nodes").flatMap nodeDemands ++
    listed es "variables" :: (members es "variables").flatMap variableDemands ++
    listed es "item_definitions" :: (members es "item_definitions").flatMap itemDemands ++
    texts es "signals" ++
    listed es "messages" :: (members es "messages").flatMap messageDemands

/-! ### Reading an entry -/

lemma display?_settles (v : Value) : Settles [.spellable v] v.display? := by
  rw [Value.display?]
  split
  · next h => exact .cons h .pure
  · next h => exact .head (Bool.eq_false_iff.mpr h) .spellable

lemma displayAt_settles (es : Entries) (key : String) :
    Settles [displayed es key] (displayAt es key) :=
  (display?_settles _).bind fun _ _ => .pure

lemma presentAt_settles (es : Entries) (key : String) :
    Settles [present es key] (presentAt es key) :=
  (display?_settles _).bind fun _ _ => .pure

lemma textAt_settles (es : Entries) (key source : String) :
    Settles [textual es key] (textAt es key source) := by
  rw [textual, optional, textAt]
  cases Value.field es key with
  | null | text _ => exact .cons rfl .pure
  | _ => exact .refuse

lemma listAt_settles (es : Entries) (key source : String) :
    Settles [listed es key] (listAt es key source) := by
  rw [listed, optional, listAt]
  cases Value.field es key with
  | null | list _ => exact .cons rfl .pure
  | _ => exact .refuse

lemma listAt_eq {xs : List Value} (h : listAt es key source = .ok xs) : xs = members es key := by
  rw [listAt] at h
  rw [members]
  split at h
  · next hnull =>
      cases h
      rw [hnull]
  · next hlist =>
      cases h
      rw [hlist]
  · cases h

lemma mappingAt_settles (es : Entries) (key source : String) :
    Settles [mapped es key] (mappingAt es key source) := by
  rw [mapped, optional, mappingAt]
  cases Value.field es key with
  | null | dict _ => exact .cons rfl .pure
  | _ => exact .refuse

lemma mappingAt_eq {fs : Entries} (h : mappingAt es key source = .ok fs) :
    fs = (Value.field es key).fields := by
  rw [mappingAt] at h
  split at h
  · next hnull =>
      cases h
      rw [hnull]
      rfl
  · next hdict =>
      cases h
      rw [hdict]
      rfl
  · cases h

lemma textsAt_settles (es : Entries) (key source : String) :
    Settles (texts es key) (textsAt es key source) := by
  refine (listAt_settles es key source).bind (r := [.shape ((members es key).all Value.isText)])
    fun xs hxs => ?_
  rw [← listAt_eq hxs]
  split
  · next h => exact .cons h .pure
  · next h => exact .head (Bool.eq_false_iff.mpr h) .shape

/-! ### Reading a section -/

lemma parseNode_settles (source : String) (v : Value) :
    Settles (nodeDemands v) (parseNode source v) := by
  cases v with
  | dict es mark =>
      have hid := displayAt_settles es "id"
      have hname := displayAt_settles es "name"
      have htext := fun key => textAt_settles es key source
      simp only [nodeDemands, Value.entries?, parseNode]
      generalize (Value.field? es "kind").getD (.text "node") = kind
      by_cases hhash : kind.hashable = true
      · rw [hhash]
        refine .cons hhash ?_
        simp only [Bool.not_true, Bool.false_eq_true, if_false]
        -- the kinds that are known, then all others
        fun_cases references? kind with
        | case1 => exact hid.bind fun _ _ => hname.bind fun _ _ => .pure
        | case2 =>
            exact hid.bind fun _ _ => hname.bind fun _ _ => (htext _).bind fun _ _ => .pure
        | case3 =>
            exact hid.bind fun _ _ => hname.bind fun _ _ => (htext _).bind fun _ _ => .pure
        | case4 =>
            exact hid.bind fun _ _ => hname.bind fun _ _ => (htext _).bind fun _ _ =>
              (htext _).bind fun _ _ => .pure
        | case5 kind hnode hruleSet hworkItem hsubProcess =>
            dsimp only
            split
            · exact (hnode rfl).elim
            · exact (hruleSet rfl).elim
            · exact (hworkItem rfl).elim
            · exact (hsubProcess rfl).elim
            · exact (display?_settles kind).bind fun _ _ => .refuse
      · rw [Bool.eq_false_iff.mpr hhash]
        exact .head (Bool.eq_false_iff.mpr hhash) .hashable
  | _ => exact .refuse

lemma parseVariable_settles (source : String) (v : Value) :
    Settles (variableDemands v) (parseVariable source v) := by
  rw [variableDemands, parseVariable]
  rcases entriesWith? v "name" with _ | es
  · exact .refuse
  · exact (textAt_settles es _ source).bind fun _ _ => (presentAt_settles es _).bind fun _ _ =>
      (textAt_settles es _ source).bind fun _ _ => .pure

lemma parseItem_settles (source : String) (v : Value) :
    Settles (itemDemands v) (parseItem source v) := by
  rw [itemDemands, parseItem]
  rcases entriesWith? v "id" with _ | es
  · exact .refuse
  · exact (presentAt_settles es _).bind fun _ _ =>
      (textAt_settles es _ source).bind fun _ _ => .pure

lemma parseGlobal_settles (source : String) (e : Value × Value) :
    Settles (globalDemands e) (parseGlobal source e) := by
  refine (display?_settles e.1).bind (r := [.shape (e.2.isText && e.2.truthy)]) fun name _ => ?_
  split
  · next h => exact .cons h .pure
  · next h => exact .head (Bool.eq_false_iff.mpr h) .shape

lemma parseMessage_settles (source : String) (v : Value) :
    Settles (messageDemands v) (parseMessage source v) := by
  rw [messageDemands, parseMessage]
  rcases entriesWith? _ "id" with _ | es
  · exact .refuse
  · exact (presentAt_settles es _).bind fun _ _ => (presentAt_settles es _).bind fun _ _ =>
      (presentAt_settles es _).bind fun _ _ => .pure

/-- Members go into a set one after the other. -/
lemma setOf?_settles (xs : List Value) : Settles (xs.map .hashable) (Value.setOf? xs) := by
  have hfold : ∀ (xs seen : List Value),
      Settles (xs.map .hashable) (xs.foldlM Value.insert? seen) := by
    intro xs
    induction xs with
    | nil => exact fun _ => .pure
    | cons x xs ih =>
        intro seen
        have hinsert : Settles [.hashable x] (Value.insert? seen x) := by
          rw [Value.insert?]
          split
          · next h => exact .cons h .pure
          · next h => exact .head (Bool.eq_false_iff.mpr h) .hashable
        rw [List.foldlM_cons]
        exact hinsert.bind fun more _ => ih more
  exact hfold xs []

lemma parseMetadataEntry_settles (e : Value × Value) :
    Settles (metadataDemands e) (parseMetadataEntry e) := by
  refine (display?_settles e.1).bind fun key _ => ?_
  rcases e with ⟨k, v⟩
  cases v with
  | list xs mark =>
      dsimp only
      rw [← List.append_nil (List.map _ _)]
      exact (setOf?_settles xs).bind fun _ _ => .pure
  | _ => exact .pure

lemma parseMetadata_settles (source : String) (v : Value) :
    Settles (.shape (v.orElse (.dict [])).isMapping ::
      (v.orElse (.dict [])).fields.flatMap metadataDemands) (parseMetadata source v) := by
  rw [parseMetadata]
  cases v.orElse (.dict []) with
  | dict es mark =>
      refine .cons rfl ?_
      rw [← List.append_nil (List.flatMap _ _)]
      exact (Settles.mapM fun e _ => parseMetadataEntry_settles e).bind fun _ _ => .pure
  | _ => exact .refuse

/-- The members of the list under a key are read, and then the rest. -/
lemma bind_members {α β : Type} {f : Value → Answer α} {k : List α → Answer β}
    {each : Value → List Demand} {rest : List Demand} (hf : ∀ v, Settles (each v) (f v))
    (hk : ∀ ys, Settles rest (k ys)) :
    Settles (listed es key :: ((members es key).flatMap each ++ rest))
      (listAt es key source >>= fun xs => xs.mapM f >>= k) := by
  refine (listAt_settles es key source).bind fun xs hxs => ?_
  rw [← listAt_eq hxs]
  exact (Settles.mapM fun v _ => hf v).bind fun ys _ => hk ys

/-- **Everything reading a descriptor can do**: the first demand that the tree does not meet decides
how it ends. -/
lemma parse_settles (source : String) (data : Value) :
    Settles (demands data) (parse source data) := by
  cases data with
  | dict es mark =>
      simp only [demands, Value.entries?, parse, List.append_assoc, List.cons_append,
        List.nil_append]
      by_cases hid : (Value.field es "id").truthy = true
      · rw [hid]
        refine .cons rfl ?_
        rw [← List.append_nil (List.flatMap messageDemands _)]
        have htexts := fun key => textsAt_settles es key source
        refine (presentAt_settles es _).bind fun id _ => (presentAt_settles es _).bind fun name _ =>
          (parseMetadata_settles source _).bind fun metadata _ =>
          (mappingAt_settles es _ source).bind fun globals hglobals => ?_
        rw [← mappingAt_eq hglobals]
        exact (Settles.mapM fun e _ => parseGlobal_settles source e).bind fun globals _ =>
          (htexts _).bind fun imports _ => (htexts _).bind fun functionImports _ =>
          bind_members (parseNode_settles source) fun nodes =>
          bind_members (parseVariable_settles source) fun vars =>
          bind_members (parseItem_settles source) fun items => (htexts _).bind fun signals _ =>
          bind_members (parseMessage_settles source) fun messages => .pure
      · rw [Bool.eq_false_iff.mpr hid]
        exact .head rfl .shape
  | _ => exact .refuse

/-! ### What escapes -/

/-- A reading ends with another fault than that of a malformed descriptor. -/
def Escapes {α : Type} (a : Answer α) : Prop := ∃ e, a = .error e ∧ ∀ why, e ≠ .descriptor why

lemma parse_escapes_iff (source : String) (data : Value) : Escapes (parse source data) ↔
    ∃ d, firstUnmet (demands data) = some d ∧ d.isChecked = false := by
  have hsettles := parse_settles source data
  constructor
  · rintro ⟨e, he, hother⟩
    obtain ⟨d, hd, hraises⟩ := hsettles.error he
    refine ⟨d, hd, Bool.eq_false_iff.mpr fun hchecked => ?_⟩
    obtain ⟨why, hwhy⟩ := hraises.isChecked_iff.mp hchecked
    exact hother why hwhy
  · rintro ⟨d, hd, hchecked⟩
    unfold Settles at hsettles
    rw [hd] at hsettles
    generalize parse source data = a at hsettles ⊢
    cases hsettles with
    | failed hraises =>
        refine ⟨_, rfl, fun why hwhy => ?_⟩
        exact Bool.eq_false_iff.mp hchecked (hraises.isChecked_iff.mpr ⟨why, hwhy⟩)

/-- A text breaks the reader of a notation: reading it fails, and not because it is malformed. -/
def Format.Breaks : Format → String → Prop
  | .json, text => ∃ e, Json.read text = .error e ∧ e ≠ .malformed
  | .yaml, text => ∃ e, Yaml.read 0 text = .error e ∧ e ≠ .malformed

/-- A text writes a tree in a notation. -/
def Format.Writes : Format → String → Value → Prop
  | .json, text, data => Json.read text = .ok data
  | .yaml, text, data => Yaml.read 0 text = .ok data

lemma Format.read_escapes_iff (f : Format) (name text : String) :
    Escapes (f.read name text) ↔ f.Breaks text := by
  cases f with
  | json =>
      rw [Format.read, Format.Breaks]
      rcases Json.read text with e | data
      · cases e <;> simp [Escapes, Except.mapError, jsonFault]
      · simp [Escapes, Except.mapError]
  | yaml =>
      rw [Format.read, Format.Breaks]
      rcases Yaml.read 0 text with e | data
      · cases e <;> simp [Escapes, Except.mapError, yamlFault, Yaml.Failure.fault?]
      · simp [Escapes, Except.mapError]

lemma Format.read_ok_iff {f : Format} {name text : String} {data : Value} :
    f.read name text = .ok data ↔ f.Writes text data := by
  cases f with
  | json =>
      rw [Format.read, Format.Writes]
      rcases Json.read text with e | d <;> simp [Except.mapError]
  | yaml =>
      rw [Format.read, Format.Writes]
      rcases Yaml.read 0 text with e | d <;> simp [Except.mapError]

/-- One reading after another escapes where the first does, or the second after it. -/
lemma escapes_bind {α β : Type} {a : Answer α} {f : α → Answer β} :
    Escapes (a >>= f) ↔ Escapes a ∨ ∃ x, a = .ok x ∧ Escapes (f x) := by
  rcases a with e | x
  · simp [Escapes, bind, Except.bind]
  · simp [Escapes, bind, Except.bind]

lemma readText_ok_iff {tree : FileTree} {path : Path} {text : String} :
    readText tree path = .ok text ↔
      ∃ bytes, tree.read path = .ok bytes ∧ decodeText bytes = some text := by
  rw [readText]
  rcases tree.read path with why | bytes
  · cases why <;> simp [refuse]
  · rcases hdecode : decodeText bytes with _ | s <;> simp [hdecode]

lemma readText_escapes_iff {tree : FileTree} {path : Path} : Escapes (readText tree path) ↔
    tree.read path = .error .noPath ∨
      ∃ bytes, tree.read path = .ok bytes ∧ decodeText bytes = none := by
  rw [readText]
  rcases tree.read path with why | bytes
  · cases why <;> simp [Escapes, refuse]
  · rcases hdecode : decodeText bytes with _ | s <;> simp [Escapes, hdecode]

/-- The process that the text in a file describes. -/
def interpret (path : Path) (text : String) : Answer ProcessDefinition :=
  match Format.ofEnding? (Text.lower path.ending) with
  | none => refuse (.unsupported (Text.lower path.ending) path.text)
  | some format => format.read path.text text >>= parse path.text

lemma load_eq (tree : FileTree) (path : Path) :
    load tree path = readText tree path >>= interpret path := by
  refine congrArg (readText tree path >>= ·) (funext fun text => ?_)
  rcases hformat : Format.ofEnding? (Text.lower path.ending) with _ | format <;>
    simp only [interpret, hformat]

lemma interpret_escapes_iff (path : Path) (text : String) : Escapes (interpret path text) ↔
    ∃ format, Format.ofEnding? (Text.lower path.ending) = some format ∧
      (format.Breaks text ∨
        ∃ data, format.Writes text data ∧ Escapes (parse path.text data)) := by
  rw [interpret]
  rcases Format.ofEnding? (Text.lower path.ending) with _ | format
  · simp [Escapes, refuse]
  · simp only [escapes_bind, Format.read_escapes_iff, Format.read_ok_iff, Option.some.injEq,
      exists_eq_left']

/-- A file is not read, or its text is. -/
lemma load_escapes_iff (tree : FileTree) (path : Path) : Escapes (load tree path) ↔
    tree.read path = .error .noPath ∨
    ∃ bytes, tree.read path = .ok bytes ∧ (decodeText bytes = none ∨
      ∃ text, decodeText bytes = some text ∧ Escapes (interpret path text)) := by
  rw [load_eq, escapes_bind, readText_escapes_iff, or_assoc]
  refine or_congr_right ⟨?_, ?_⟩
  · rintro (⟨bytes, hbytes, hno⟩ | ⟨text, htext, hescapes⟩)
    · exact ⟨bytes, hbytes, .inl hno⟩
    · obtain ⟨bytes, hbytes, hdecode⟩ := readText_ok_iff.mp htext
      exact ⟨bytes, hbytes, .inr ⟨text, hdecode, hescapes⟩⟩
  · rintro ⟨bytes, hbytes, hno | ⟨text, hdecode, hescapes⟩⟩
    · exact .inl ⟨bytes, hbytes, hno⟩
    · exact .inr ⟨text, readText_ok_iff.mpr ⟨bytes, hbytes, hdecode⟩, hescapes⟩

/-- **What is reported and what escapes.** A tree describes a process exactly if it meets all
demands; else it is reported as malformed, unless the first demand that it does not meet is one that
is not checked. A file is reported as well, unless its path is none, its bytes are no text, its text
breaks the reader of its notation, or reading its tree escapes. -/
theorem escapes_iff (source : String) (data : Value) (tree : FileTree) (path : Path) :
    ((∃ p, parse source data = .ok p) ↔ ∀ d ∈ demands data, d.isMet = true) ∧
    (Escapes (parse source data) ↔
      ∃ d, firstUnmet (demands data) = some d ∧ d.isChecked = false) ∧
    (Escapes (load tree path) ↔
      tree.read path = .error .noPath ∨
      ∃ bytes, tree.read path = .ok bytes ∧
        (decodeText bytes = none ∨ ∃ text, decodeText bytes = some text ∧
          ∃ format, Format.ofEnding? (Text.lower path.ending) = some format ∧
            (format.Breaks text ∨
              ∃ data, format.Writes text data ∧ Escapes (parse path.text data)))) := by
  refine ⟨(parse_settles source data).ok_iff, parse_escapes_iff source data, ?_⟩
  rw [load_escapes_iff]
  simp only [interpret_escapes_iff]

/-- A process with a node whose kind is a list of texts. -/
def listedKind : Value := .dict [(.text "id", .text "P"),
  (.text "nodes", .list [.dict [(.text "kind", .list [.text "rule_set"])]])]

/-- **A node of no known kind is reported, but not if the kind is a list**: this is looked up among
the known kinds before, and cannot be. -/
theorem parse_escapes_listed :
    parse "<document>" listedKind = .error .illTyped ∧ Escapes (parse "<document>" listedKind) := by
  have hfault : (parse "<document>" listedKind).map (fun _ => ()) = .error .illTyped := by
    decide +kernel
  have hanswer : parse "<document>" listedKind = .error .illTyped := by
    rcases hparse : parse "<document>" listedKind with e | p <;> rw [hparse] at hfault <;>
      cases hfault
    rfl
  exact ⟨hanswer, _, hanswer, nofun⟩

end Descriptor

end Concordance

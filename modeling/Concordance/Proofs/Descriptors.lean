import Mathlib
import Concordance.Descriptor
import Concordance.Proofs.Acceptance
import Concordance.Proofs.Publication
import Concordance.Proofs.Spelling

/-!
What is known of a process that was read from a descriptor.

* `Value.isClean` : a tree in which every text can be encoded. `Value.isClean_elements`,
  `Value.isClean_field` : its parts are clean.
* `Value.Legible` : a text that can be encoded.
* `ProcessDefinition.Described` : ids and names are such texts, every field is a collection of the
  right shape, and what the bag holds is clean.
* `Descriptor.described_of_parse` : so is every process that a clean tree describes, section by
  section.
* `ProcessDefinition.Described.textual`, `.accepted` : its names are texts, and a compiler can read
  it.
-/

namespace Concordance

/-! ### Clean trees -/

namespace Value

mutual

/-- Whether every text in a tree of lists, sets and mappings can be encoded. -/
def isClean : Value → Bool
  | text s => Text.isEncodable s
  | list xs _ => allClean xs
  | tuple xs _ => allClean xs
  | set _ xs _ => allClean xs
  | dict es _ => entriesClean es
  | _ => true

/-- Whether every one of several trees is clean. -/
def allClean : List Value → Bool
  | [] => true
  | x :: xs => isClean x && allClean xs

/-- Whether every entry of a mapping is clean. -/
def entriesClean : List (Value × Value) → Bool
  | [] => true
  | (k, v) :: es => isClean k && isClean v && entriesClean es

end

/-- A text that can be encoded. -/
def Legible (v : Value) : Prop := ∃ s, v = .text s ∧ Text.isEncodable s = true

lemma legible_text {s : String} : (text s).Legible ↔ Text.isEncodable s = true :=
  ⟨fun ⟨_, ht, h⟩ => by cases ht; exact h, fun h => ⟨s, rfl, h⟩⟩

lemma Legible.isText {v : Value} (h : v.Legible) : v.isText := by
  obtain ⟨s, rfl, -⟩ := h
  rfl

lemma Legible.nameable {v : Value} (h : v.Legible) : v.Nameable := by
  obtain ⟨s, rfl, -⟩ := h
  exact .of_text s

lemma nameable_of_legible {v : Value} (h : v = .null ∨ v.Legible) : v.Nameable :=
  h.elim .inl Legible.nameable

lemma allClean_iff {xs : List Value} : allClean xs = true ↔ ∀ x ∈ xs, x.isClean = true := by
  induction xs with
  | nil => simp [allClean]
  | cons x xs ih => rw [allClean, Bool.and_eq_true, ih, List.forall_mem_cons]

lemma entriesClean_iff {es : List (Value × Value)} :
    entriesClean es = true ↔ ∀ e ∈ es, e.1.isClean = true ∧ e.2.isClean = true := by
  induction es with
  | nil => simp [entriesClean]
  | cons e es ih => rw [entriesClean, Bool.and_eq_true, Bool.and_eq_true, ih, List.forall_mem_cons]

/-- The members of a clean collection are clean. -/
lemma isClean_elements {v : Value} (h : v.isClean = true) : ∀ x ∈ v.elements, x.isClean = true := by
  cases v with
  | text s =>
      intro x hx
      obtain ⟨c, hc, rfl⟩ := List.mem_map.mp hx
      rw [isClean, Text.isEncodable_ofList, List.forall_mem_singleton]
      exact Text.isEncodable_iff.mp h c hc
  | bytes bs =>
      intro x hx
      obtain ⟨b, -, rfl⟩ := List.mem_map.mp hx
      rfl
  | list xs | tuple xs | set _ xs => exact allClean_iff.mp h
  | dict es =>
      intro x hx
      obtain ⟨e, he, rfl⟩ := List.mem_map.mp hx
      exact (entriesClean_iff.mp h e he).1
  | _ => exact List.forall_mem_nil _

/-- A written clean value can be encoded. -/
lemma isEncodable_of_display? {v : Value} {s : String} (h : v.isClean = true)
    (hs : v.display? = .ok s) : Text.isEncodable s = true := by
  rw [display?] at hs
  split at hs
  · cases hs
    exact isEncodable_display fun t ht => by rw [ht] at h; exact h
  · cases hs

section Entries

variable {es : List (Value × Value)} (h : entriesClean es = true)
include h

/-- What a clean mapping holds under a key is clean. -/
lemma isClean_of_lookup? {k v : Value} (hv : lookup? es k = some v) : v.isClean = true := by
  rw [lookup?, Option.map_eq_some_iff] at hv
  obtain ⟨e, he, rfl⟩ := hv
  exact (entriesClean_iff.mp h e (List.mem_of_find?_eq_some he)).2

lemma isClean_field (k : String) : (field es k).isClean = true := by
  rw [field, field?]
  rcases hv : lookup? es (.text k) with _ | v
  · rfl
  · exact isClean_of_lookup? h hv

lemma isClean_of_get? {k v : Value} {mark : Option Mark} (hv : (dict es mark).get? k = .ok v) :
    v.isClean = true := by
  rw [get?_dict] at hv
  split at hv
  · cases hv
    rcases hv : lookup? es k with _ | v
    · rfl
    · exact isClean_of_lookup? h hv
  · cases hv

end Entries

/-! ### Sets and mappings that are made -/

/-- What is put into a set was there, or is put in. -/
lemma mem_of_mem_foldl {x : Value} {xs seen : List Value} (h : x ∈ xs.foldl insertNew seen) :
    x ∈ seen ∨ x ∈ xs := by
  induction xs generalizing seen with
  | nil => exact .inl h
  | cons y xs ih =>
      rcases ih h with h | h
      · exact (of_mem_addNew h).imp id fun hx => List.mem_cons.mpr (.inl hx)
      · exact .inr (List.mem_cons_of_mem y h)

/-- What is made a set was there. -/
lemma mem_of_mem_dedup {xs : List Value} {x : Value} (h : x ∈ dedup xs) : x ∈ xs := by
  simpa using mem_of_mem_foldl h

/-- If all of a list can be put into a set, it is put in one after the other. -/
lemma foldl_of_foldlM {xs seen ys : List Value} (h : xs.foldlM insert? seen = .ok ys) :
    ys = xs.foldl insertNew seen := by
  induction xs generalizing seen with
  | nil => exact (Except.ok.inj h).symm
  | cons x xs ih =>
      rw [List.foldlM_cons] at h
      obtain ⟨more, hmore, hrest⟩ := Answer.bind_eq_ok_iff.mp h
      rw [ih hrest, insert?_eq_ok hmore, List.foldl_cons]

/-- What is made a set, if all of it can be a member, was there. -/
lemma mem_of_setOf? {xs ys : List Value} (h : setOf? xs = .ok ys) : ∀ y ∈ ys, y ∈ xs := by
  intro y hy
  rw [foldl_of_foldlM h] at hy
  exact mem_of_mem_dedup hy

/-- A mapping that is made of entries has their keys and values. -/
lemma forall_dictOf {P Q : Value → Prop} {es : List (Value × Value)}
    (h : ∀ e ∈ es, P e.1 ∧ Q e.2) : ∀ e ∈ dictOf es, P e.1 ∧ Q e.2 := by
  have hfold : ∀ (es fs : List (Value × Value)), (∀ e ∈ es, P e.1 ∧ Q e.2) →
      (∀ e ∈ fs, P e.1 ∧ Q e.2) →
      ∀ e ∈ es.foldl (fun m e => put m e.1 e.2) fs, P e.1 ∧ Q e.2 := by
    intro es
    induction es with
    | nil => exact fun fs _ hfs => hfs
    | cons e es ih =>
        intro fs hes hfs
        rw [List.forall_mem_cons] at hes
        exact ih _ hes.2 ((put_entered e.1 e.2 fs).forall_mem hes.1.1 hes.1.2 hfs)
  exact hfold es [] h (List.forall_mem_nil _)

end Value

/-! ### Described processes -/

/-- A node whose references are texts that can be encoded, or absent. -/
def Value.LegibleNode : Value → Prop
  | .ruleSet _ _ group => group = .null ∨ group.Legible
  | .workItem _ _ work => work = .null ∨ work.Legible
  | .subProcess _ _ processId processName => processId.Legible ∧ processName.Legible
  | _ => True

/-- A variable whose name, type and item are texts that can be encoded; it may have no item. -/
def Value.LegibleVar (v : Value) : Prop :=
  ∃ n t m, v = .var n t (.dict m) ∧ n.Legible ∧ t.Legible ∧
    (m = [] ∨ ∃ subject, m = [(.text Variable.itemSubjectKey, .text subject)])

/-- An item whose class is a text that can be encoded, or absent. -/
def Value.LegibleItem (v : Value) : Prop := ∃ i s, v = .item i s ∧ (s = .null ∨ s.Legible)

/-- A process with collections of the right shapes, in which all names can be encoded; its bag may
hold an index. -/
structure ProcessDefinition.Described (p : ProcessDefinition) : Prop where
  id : p.id.Legible
  name : p.name.Legible
  isMapping : p.metadata.isMapping = true
  bag : ∀ k v, k ≠ Index.metadataKey → p.metadata.get? (.text k) = .ok v → v.isClean = true
  globals : ∃ es, p.globals = .dict es ∧ ∀ e ∈ es, e.1.Legible ∧ e.2.Legible
  imports : ∃ xs, p.imports = .set false xs ∧ ∀ x ∈ xs, x.Legible
  functionImports : ∃ xs, p.functionImports = .list xs ∧ ∀ x ∈ xs, x.Legible
  nodes : ∃ xs, p.nodes = .list xs ∧ ∀ x ∈ xs, x.LegibleNode
  vars : ∃ xs, p.vars = .list xs ∧ ∀ x ∈ xs, x.LegibleVar
  items : ∃ es, p.itemDefinitions = .dict es ∧ ∀ e ∈ es, e.1.Legible ∧ e.2.LegibleItem
  signals : ∃ xs, p.signals = .set false xs ∧ ∀ x ∈ xs, x.Legible
  messages : ∃ es, p.messages = .dict es ∧ ∀ e ∈ es, e.1.Legible

/-! ### Reading a descriptor -/

/-- What holds of all that the members of a list are turned into. -/
lemma Answer.forall_mem_mapM {α β : Type} {f : α → Answer β} {P : β → Prop} :
    ∀ {xs : List α} {ys : List β}, xs.mapM f = .ok ys → (∀ x ∈ xs, ∀ y, f x = .ok y → P y) →
      ∀ y ∈ ys, P y
  | [], ys, h, _, y, hy => by
      cases h
      cases hy
  | x :: xs, ys, h, hP, y, hy => by
      rw [List.mapM_cons] at h
      obtain ⟨z, hz, h⟩ := Answer.bind_eq_ok_iff.mp h
      obtain ⟨zs, hzs, h⟩ := Answer.bind_eq_ok_iff.mp h
      cases h
      rw [List.forall_mem_cons] at hP
      rcases List.mem_cons.mp hy with rfl | hy
      · exact hP.1 y hz
      · exact forall_mem_mapM hzs hP.2 y hy

namespace Descriptor

open Value (isClean entriesClean)

variable {source : String} {v w : Value} {es fs : Entries} {xs : List Value} {key : String}

/-! Single entries -/

section One

variable (h : entriesClean es = true)
include h

lemma listAt_clean (hxs : listAt es key source = .ok xs) : ∀ x ∈ xs, x.isClean = true := by
  have hfield := Value.isClean_field h key
  rw [listAt] at hxs
  split at hxs
  · cases hxs
    exact List.forall_mem_nil _
  · next hlist =>
      cases hxs
      rw [hlist] at hfield
      exact Value.allClean_iff.mp hfield
  · cases hxs

lemma mappingAt_clean (hfs : mappingAt es key source = .ok fs) : entriesClean fs = true := by
  have hfield := Value.isClean_field h key
  rw [mappingAt] at hfs
  split at hfs
  · cases hfs
    rfl
  · next hdict =>
      cases hfs
      rw [hdict] at hfield
      exact hfield
  · cases hfs

lemma textsAt_legible (hxs : textsAt es key source = .ok xs) : ∀ x ∈ xs, x.Legible := by
  rw [textsAt] at hxs
  obtain ⟨ys, hys, hxs⟩ := Answer.bind_eq_ok_iff.mp hxs
  split at hxs
  · next htexts =>
      cases hxs
      intro x hx
      obtain ⟨s, rfl⟩ := Value.isText_iff.mp (List.all_eq_true.mp htexts x hx)
      exact ⟨s, rfl, listAt_clean h hys _ hx⟩
  · cases hxs

lemma textAt_legible (hv : textAt es key source = .ok v) : v = .null ∨ v.Legible := by
  have hfield := Value.isClean_field h key
  rw [textAt] at hv
  split at hv
  · cases hv
    exact .inl rfl
  · next s htext =>
      cases hv
      rw [htext] at hfield
      exact .inr ⟨s, rfl, hfield⟩
  · cases hv

lemma presentAt_legible (hv : presentAt es key = .ok v) : v.Legible := by
  rw [presentAt] at hv
  obtain ⟨s, hs, hv⟩ := Answer.bind_eq_ok_iff.mp hv
  cases hv
  refine ⟨s, rfl, Value.isEncodable_of_display? ?_ hs⟩
  rw [Value.orElse]
  split
  · exact Value.isClean_field h key
  · decide

end One

/-- A text that may be absent, or the empty text. -/
lemma legible_orElse {t : String} (ht : Text.isEncodable t = true) (hv : v = .null ∨ v.Legible) :
    (v.orElse (.text t)).Legible := by
  rcases hv with rfl | ⟨s, rfl, hs⟩
  · exact ⟨t, rfl, ht⟩
  · rw [Value.orElse]
    split
    · exact ⟨s, rfl, hs⟩
    · exact ⟨t, rfl, ht⟩

lemma entriesWith?_clean (h : v.isClean = true) (hes : entriesWith? v key = some es) :
    entriesClean es = true := by
  rw [entriesWith?, Option.filter_eq_some_iff] at hes
  cases v with
  | dict fs mark =>
      cases hes.1
      exact h
  | _ => cases hes.1

/-! Sections -/

lemma parseNode_legible (h : v.isClean = true) (hw : parseNode source v = .ok w) :
    w.LegibleNode := by
  cases v with
  | dict es mark =>
      replace h : entriesClean es = true := h
      rw [parseNode] at hw
      dsimp only at hw
      split at hw
      · cases hw
      split at hw
      · obtain ⟨id, -, hw⟩ := Answer.bind_eq_ok_iff.mp hw
        obtain ⟨name, -, hw⟩ := Answer.bind_eq_ok_iff.mp hw
        cases hw
        trivial
      · obtain ⟨id, -, hw⟩ := Answer.bind_eq_ok_iff.mp hw
        obtain ⟨name, -, hw⟩ := Answer.bind_eq_ok_iff.mp hw
        obtain ⟨group, hgroup, hw⟩ := Answer.bind_eq_ok_iff.mp hw
        cases hw
        exact textAt_legible h hgroup
      · obtain ⟨id, -, hw⟩ := Answer.bind_eq_ok_iff.mp hw
        obtain ⟨name, -, hw⟩ := Answer.bind_eq_ok_iff.mp hw
        obtain ⟨work, hwork, hw⟩ := Answer.bind_eq_ok_iff.mp hw
        cases hw
        exact textAt_legible h hwork
      · obtain ⟨id, -, hw⟩ := Answer.bind_eq_ok_iff.mp hw
        obtain ⟨name, -, hw⟩ := Answer.bind_eq_ok_iff.mp hw
        obtain ⟨processId, hid, hw⟩ := Answer.bind_eq_ok_iff.mp hw
        obtain ⟨processName, hname, hw⟩ := Answer.bind_eq_ok_iff.mp hw
        cases hw
        exact ⟨legible_orElse (by decide) (textAt_legible h hid),
          legible_orElse (by decide) (textAt_legible h hname)⟩
      · obtain ⟨kind, -, hw⟩ := Answer.bind_eq_ok_iff.mp hw
        cases hw
  | _ => cases hw

lemma parseVariable_legible (h : v.isClean = true) (hw : parseVariable source v = .ok w) :
    w.LegibleVar := by
  rw [parseVariable] at hw
  rcases hes : entriesWith? v "name" with _ | es <;> simp only [hes] at hw
  · cases hw
  have hclean := entriesWith?_clean h hes
  obtain ⟨subject, hsubject, hw⟩ := Answer.bind_eq_ok_iff.mp hw
  obtain ⟨name, hname, hw⟩ := Answer.bind_eq_ok_iff.mp hw
  obtain ⟨type, htype, hw⟩ := Answer.bind_eq_ok_iff.mp hw
  cases hw
  refine ⟨name, _, _, rfl, presentAt_legible hclean hname,
    legible_orElse (by decide) (textAt_legible hclean htype), ?_⟩
  split
  · next hyes =>
      rcases textAt_legible hclean hsubject with rfl | ⟨s, rfl, -⟩
      · cases hyes
      · exact .inr ⟨s, rfl⟩
  · exact .inl rfl

lemma parseItem_legible {e : Value × Value} (h : v.isClean = true)
    (he : parseItem source v = .ok e) : e.1.Legible ∧ e.2.LegibleItem := by
  rw [parseItem] at he
  rcases hes : entriesWith? v "id" with _ | es <;> simp only [hes] at he
  · cases he
  have hclean := entriesWith?_clean h hes
  obtain ⟨id, hid, he⟩ := Answer.bind_eq_ok_iff.mp he
  obtain ⟨type, htype, he⟩ := Answer.bind_eq_ok_iff.mp he
  cases he
  exact ⟨presentAt_legible hclean hid, id, type, rfl, textAt_legible hclean htype⟩

lemma parseGlobal_legible {e f : Value × Value} (h : e.1.isClean = true ∧ e.2.isClean = true)
    (hf : parseGlobal source e = .ok f) : f.1.Legible ∧ f.2.Legible := by
  rw [parseGlobal] at hf
  obtain ⟨name, hname, hf⟩ := Answer.bind_eq_ok_iff.mp hf
  split at hf
  · next htype =>
      cases hf
      rw [Bool.and_eq_true] at htype
      obtain ⟨t, ht⟩ := Value.isText_iff.mp htype.1
      rw [ht] at h ⊢
      exact ⟨⟨name, rfl, Value.isEncodable_of_display? h.1 hname⟩, t, rfl, h.2⟩
  · cases hf

lemma parseMessage_legible {e : Value × Value} (h : v.isClean = true)
    (he : parseMessage source v = .ok e) : e.1.Legible := by
  rw [parseMessage] at he
  have hentry : (if v.isText then .dict [(.text "id", v)] else v : Value).isClean = true := by
    split
    · have hkey : (Value.text "id").isClean = true := by decide
      rw [isClean, Value.entriesClean_iff, List.forall_mem_singleton]
      exact ⟨hkey, h⟩
    · exact h
  generalize (if v.isText then .dict [(.text "id", v)] else v : Value) = w at he hentry
  rcases hes : entriesWith? w "id" with _ | es <;> simp only [hes] at he
  · cases he
  have hclean := entriesWith?_clean hentry hes
  obtain ⟨id, hid, he⟩ := Answer.bind_eq_ok_iff.mp he
  obtain ⟨name, -, he⟩ := Answer.bind_eq_ok_iff.mp he
  obtain ⟨type, -, he⟩ := Answer.bind_eq_ok_iff.mp he
  cases he
  exact presentAt_legible hclean hid

lemma parseMetadataEntry_clean {e f : Value × Value} (h : e.1.isClean = true ∧ e.2.isClean = true)
    (hf : parseMetadataEntry e = .ok f) : f.1.isClean = true ∧ f.2.isClean = true := by
  rw [parseMetadataEntry] at hf
  obtain ⟨key, hkey, hf⟩ := Answer.bind_eq_ok_iff.mp hf
  have hkey' : (Value.text key).isClean = true := Value.isEncodable_of_display? h.1 hkey
  split at hf
  · next xs _ hlist =>
      obtain ⟨ys, hys, hf⟩ := Answer.bind_eq_ok_iff.mp hf
      cases hf
      rw [hlist] at h
      refine ⟨hkey', Value.allClean_iff.mpr fun y hy => ?_⟩
      exact Value.allClean_iff.mp h.2 y (Value.mem_of_setOf? hys y hy)
  · cases hf
    exact ⟨hkey', h.2⟩

lemma parseMetadata_clean (h : v.isClean = true) (hw : parseMetadata source v = .ok w) :
    ∃ fs, w = .dict fs ∧ entriesClean fs = true := by
  rw [parseMetadata] at hw
  have hbag : (v.orElse (.dict [])).isClean = true := by
    rw [Value.orElse]
    split
    · exact h
    · rfl
  split at hw
  · next es _ hes =>
      obtain ⟨fs, hfs, hw⟩ := Answer.bind_eq_ok_iff.mp hw
      cases hw
      rw [hes] at hbag
      have hfs' : ∀ f ∈ fs, f.1.isClean = true ∧ f.2.isClean = true :=
        Answer.forall_mem_mapM hfs fun e he _ =>
          parseMetadataEntry_clean (Value.entriesClean_iff.mp hbag e he)
      exact ⟨_, rfl, Value.entriesClean_iff.mpr (Value.forall_dictOf
        (P := (isClean · = true)) (Q := (isClean · = true)) hfs')⟩
  · cases hw

/-- **Every process that a clean tree describes** has collections of the right shapes, in which all
names can be encoded. -/
theorem described_of_parse {p : ProcessDefinition} (h : v.isClean = true)
    (hp : parse source v = .ok p) : p.Described := by
  cases v with
  | dict es mark =>
      replace h : entriesClean es = true := h
      rw [parse] at hp
      dsimp only at hp
      split at hp
      · cases hp
      simp only [Answer.bind_eq_ok_iff] at hp
      obtain ⟨id, hid, name, hname, metadata, hmetadata, globals₀, hglobals₀, globals,
        hglobals, imports, himports, functions, hfunctions, nodes₀, hnodes₀, nodes, hnodes, vars₀,
        hvars₀, vars, hvars, items₀, hitems₀, items, hitems, signals, hsignals, messages₀,
        hmessages₀, messages, hmessages, hp⟩ := hp
      obtain ⟨bag, rfl, hbag⟩ := parseMetadata_clean (Value.isClean_field h _) hmetadata
      cases hp
      have hglobals' := Answer.forall_mem_mapM hglobals fun e he _ =>
        parseGlobal_legible (Value.entriesClean_iff.mp (mappingAt_clean h hglobals₀) e he)
      have hnodes' := Answer.forall_mem_mapM hnodes fun v hv _ =>
        parseNode_legible (listAt_clean h hnodes₀ v hv)
      have hvars' := Answer.forall_mem_mapM hvars fun v hv _ =>
        parseVariable_legible (listAt_clean h hvars₀ v hv)
      have hitems' := Answer.forall_mem_mapM hitems fun v hv _ =>
        parseItem_legible (listAt_clean h hitems₀ v hv)
      have hmessages' := Answer.forall_mem_mapM hmessages fun v hv _ =>
        parseMessage_legible (listAt_clean h hmessages₀ v hv)
      exact {
        id := presentAt_legible h hid
        name := presentAt_legible h hname
        isMapping := rfl
        bag := fun k v _ hv => Value.isClean_of_get? hbag hv
        globals := ⟨_, rfl, Value.forall_dictOf hglobals'⟩
        imports := ⟨_, rfl, fun x hx => textsAt_legible h himports x (Value.mem_of_mem_dedup hx)⟩
        functionImports := ⟨_, rfl, textsAt_legible h hfunctions⟩
        nodes := ⟨_, rfl, hnodes'⟩
        vars := ⟨_, rfl, hvars'⟩
        items := ⟨_, rfl, Value.forall_dictOf hitems'⟩
        signals := ⟨_, rfl, fun x hx => textsAt_legible h hsignals x (Value.mem_of_mem_dedup hx)⟩
        messages := ⟨_, rfl, fun e he => (Value.forall_dictOf (Q := fun _ => True)
          (fun f hf => ⟨hmessages' f hf, trivial⟩) e he).1⟩ }
  | _ => cases hp

end Descriptor

/-! ### What a described process is good for -/

namespace ProcessDefinition.Described

variable {p q : ProcessDefinition}

/-- Its names are texts. -/
lemma textual (h : p.Described) : p.Textual := by
  obtain ⟨globals, hglobals, hglobal⟩ := h.globals
  obtain ⟨imports, himports, himport⟩ := h.imports
  obtain ⟨functions, hfunctions, hfunction⟩ := h.functionImports
  obtain ⟨nodes, hnodes, hnode⟩ := h.nodes
  obtain ⟨vars, hvars, hvar⟩ := h.vars
  obtain ⟨items, hitems, hitem⟩ := h.items
  refine ⟨⟨h.id.isText, h.name.isText, ?_, ?_, ?_⟩, ?_, ?_, ?_⟩
  · rw [hglobals]
    exact fun e he => ⟨(hglobal e he).1.isText, (hglobal e he).2.nameable⟩
  · rw [himports]
    exact fun x hx => (himport x hx).nameable
  · rw [hfunctions]
    exact fun x hx => (hfunction x hx).isText
  · rw [hnodes]
    intro x hx
    have hx' := hnode x hx
    cases x with
    | ruleSet _ _ group => exact Value.nameable_of_legible hx'
    | workItem _ _ work => exact Value.nameable_of_legible hx'
    | subProcess _ _ processId processName => exact ⟨hx'.1.nameable, hx'.2.nameable⟩
    | _ => trivial
  · rw [hvars]
    intro n t m hx
    obtain ⟨n, t, m, heq, hn, ht, -⟩ := hvar _ hx
    cases heq
    exact ⟨hn.isText, ht.nameable⟩
  · rw [hitems]
    intro k i s hx
    obtain ⟨i, s, heq, hs⟩ := (hitem _ hx).2
    cases heq
    exact Value.nameable_of_legible hs

/-- A compiler can read it. -/
lemma accepted (h : p.Described) : p.Accepted := by
  obtain ⟨nodes, hnodes, -⟩ := h.nodes
  obtain ⟨vars, hvars, hvar⟩ := h.vars
  obtain ⟨items, hitems, hitem⟩ := h.items
  obtain ⟨signals, hsignals, hsignal⟩ := h.signals
  obtain ⟨messages, hmessages, hmessage⟩ := h.messages
  rw [accepted_iff, hnodes, hvars, hitems, hsignals, hmessages]
  refine ⟨rfl, ⟨rfl, fun v hv => ?_⟩, fun _ => ⟨_, rfl, fun e he => ⟨(hitem e he).1.isText, ?_⟩⟩,
    fun _ => ⟨_, rfl, fun x hx => (hsignal x hx).isText⟩,
    fun _ => ⟨_, rfl, fun e he => (hmessage e he).isText⟩⟩
  · obtain ⟨n, t, m, rfl, -⟩ := hvar v hv
    exact ⟨_, _, _, rfl⟩
  · obtain ⟨i, s, hs, -⟩ := (hitem e he).2
    exact ⟨i, s, hs⟩

/-- It stays so when an index goes into its bag. -/
lemma carries {s : Settings} {i : Index} (h : p.Described) (hq : Pipeline.Carries s i p q) :
    q.Described := by
  have hbag : q.metadata.isMapping = true ∧ ∀ k v, k ≠ Index.metadataKey →
      q.metadata.get? (.text k) = .ok v → v.isClean = true := by
    by_cases hmeta : s.pipeline.publishToMetadata = true
    · have hin := hq.bag hmeta
      obtain ⟨es, mark, fs, -, hfs, -⟩ := hin.entries
      refine ⟨by rw [hfs]; rfl, fun k v hk hv => ?_⟩
      rw [hin.others _ fun heq => hk (Value.text.inj heq)] at hv
      exact h.bag k v hk hv
    · rw [hq.noBag (Bool.eq_false_iff.mpr hmeta)]
      exact ⟨h.isMapping, h.bag⟩
  rw [hq.fields]
  exact ⟨h.id, h.name, hbag.1, hbag.2, h.globals, h.imports, h.functionImports, h.nodes, h.vars,
    h.items, h.signals, h.messages⟩

end ProcessDefinition.Described

end Concordance

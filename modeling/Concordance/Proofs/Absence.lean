import Mathlib
import Concordance.Proofs.Acceptance
import Concordance.Proofs.Demands

/-!
Entries of a descriptor whose value is null, and descriptors without them.

* `Thinned es fs` : a mapping without some of its null entries; `Pruned es fs` : a descriptor
  without some of its own, and of those of its nodes, variables, item definitions and messages.
* `Answer.Follows` : an answer that is like another, unless that one failed in a given way.
* `Descriptor.Loses key v w` : a mapping has lost a null under a key.
* `Descriptor.parse_pruned` : leaving such entries out changes nothing, except where a node loses
  its id, name or kind.
* `Descriptor.parse_tells_null` : there a null is not read as absent.
-/

namespace Concordance

/-! ### Answers that are alike -/

namespace Answer

variable {α β γ δ : Type}

/-- Answers that are alike: both are, and are related, or both fail in the same way. If the first
one fails in a way that is `bad`, nothing is said of the second. -/
inductive Follows (bad : Fault → Prop) (R : α → β → Prop) : Answer α → Answer β → Prop
  | ok {x : α} {y : β} (h : R x y) : Follows bad R (.ok x) (.ok y)
  | error {e : Fault} : Follows bad R (.error e) (.error e)
  | spoilt {e : Fault} {b : Answer β} (h : bad e) : Follows bad R (.error e) b

namespace Follows

variable {bad : Fault → Prop} {R : α → β → Prop} {S : γ → δ → Prop} {a : Answer α} {b : Answer β}

lemma bind {f : α → Answer γ} {g : β → Answer δ} (h : Follows bad R a b)
    (hfg : ∀ x y, R x y → Follows bad S (f x) (g y)) : Follows bad S (a >>= f) (b >>= g) := by
  cases h with
  | ok h => exact hfg _ _ h
  | error => exact .error
  | spoilt h => exact .spoilt h

/-- After the same answer. -/
lemma bind_same {f : α → Answer γ} {g : α → Answer δ} (hfg : ∀ x, Follows bad S (f x) (g x)) :
    Follows bad S (a >>= f) (a >>= g) := by
  rcases a with e | x
  · exact .error
  · exact hfg x

lemma mapM {f : α → Answer γ} {g : β → Answer δ} {xs : List α} {ys : List β}
    (h : List.Forall₂ (fun x y => Follows bad S (f x) (g y)) xs ys) :
    Follows bad (List.Forall₂ S) (xs.mapM f) (ys.mapM g) := by
  induction h with
  | nil => exact .ok .nil
  | cons hx _ ih =>
      rw [List.mapM_cons, List.mapM_cons]
      exact hx.bind fun x y hxy => ih.bind fun xs ys hxys => .ok (.cons hxy hxys)

/-- What is alike is so with what the answers are, too. -/
lemma answers (h : Follows bad R a b) : Follows bad (fun x y => a = .ok x ∧ b = .ok y) a b := by
  cases h with
  | ok h => exact .ok ⟨rfl, rfl⟩
  | error => exact .error
  | spoilt h => exact .spoilt h

lemma imp {R' : α → β → Prop} (h : Follows bad R a b) (hR : ∀ x y, R x y → R' x y) :
    Follows bad R' a b := by
  cases h with
  | ok h => exact .ok (hR _ _ h)
  | error => exact .error
  | spoilt h => exact .spoilt h

lemma weaken {bad' : Fault → Prop} (h : Follows bad R a b) (hbad : ∀ e, bad e → bad' e) :
    Follows bad' R a b := by
  cases h with
  | ok h => exact .ok h
  | error => exact .error
  | spoilt h => exact .spoilt (hbad _ h)

lemma of_ok {x : α} (h : Follows bad R (.ok x) b) : ∃ y, b = .ok y ∧ R x y := by
  cases h with
  | ok h => exact ⟨_, rfl, h⟩

lemma of_error {e : Fault} (h : Follows bad R (.error e) b) : b = .error e ∨ bad e := by
  cases h with
  | error => exact .inl rfl
  | spoilt h => exact .inr h

lemma of_eq {a b : Answer α} (h : b = a) : Follows bad (· = ·) a b := by
  subst h
  rcases b with e | x
  · exact .error
  · exact .ok rfl

lemma eq {a b : Answer α} (h : Follows (fun _ => False) (· = ·) a b) : b = a := by
  cases h with
  | ok h => rw [h]
  | error => rfl
  | spoilt h => exact h.elim

end Follows
end Answer

namespace Descriptor

/-! ### Entries that are left out -/

variable {es fs : Entries} {k v w : Value} {key source : String}

/-- A mapping without some of its null entries. A key that is left out stood there once, as all keys
do. -/
inductive Thinned : Entries → Entries → Prop
  | nil : Thinned [] []
  | kept (e : Value × Value) {es fs : Entries} (h : Thinned es fs) : Thinned (e :: es) (e :: fs)
  | dropped {k : Value} {es fs : Entries} (hk : ∀ e ∈ es, e.1.same k = false)
      (h : Thinned es fs) : Thinned ((k, .null) :: es) fs

/-- A value, or a mapping without some of its null entries. -/
inductive ThinnedValue : Value → Value → Prop
  | same (v : Value) : ThinnedValue v v
  | mapping {es fs : Entries} (h : Thinned es fs) {mark mark' : Option Mark} :
      ThinnedValue (.dict es mark) (.dict fs mark')

/-- The sections whose members are mappings. -/
def sections : List String := ["nodes", "variables", "item_definitions", "messages"]

/-- A descriptor without some of its null entries, and in some sections without null entries of the
members. -/
inductive Pruned : Entries → Entries → Prop
  | nil : Pruned [] []
  | kept (e : Value × Value) {es fs : Entries} (h : Pruned es fs) : Pruned (e :: es) (e :: fs)
  | dropped {k : Value} {es fs : Entries} (hk : ∀ e ∈ es, e.1.same k = false)
      (h : Pruned es fs) : Pruned ((k, .null) :: es) fs
  | thinned {key : String} {xs ys : List Value} {mark mark' : Option Mark} {es fs : Entries}
      (hkey : key ∈ sections) (hxs : List.Forall₂ ThinnedValue xs ys) (h : Pruned es fs) :
      Pruned ((.text key, .list xs mark) :: es) ((.text key, .list ys mark') :: fs)

lemma field?_eq_none (h : ∀ e ∈ es, e.1.same (.text key) = false) : Value.field? es key = none := by
  rw [Value.field?, Value.lookup?, Option.map_eq_none_iff, List.find?_eq_none]
  exact fun e he => Bool.eq_false_iff.mp (h e he)

lemma Thinned.subset (h : Thinned es fs) : fs ⊆ es := by
  induction h with
  | nil => exact List.Subset.refl _
  | kept e _ ih => exact List.cons_subset_cons e ih
  | dropped _ _ ih => exact List.subset_cons_of_subset _ ih

/-- **What is found in a mapping** is found where null entries are left out, unless it was null and
is not found there. -/
lemma Thinned.found (h : Thinned es fs) (key : String) :
    Value.field? fs key = Value.field? es key ∨
      Value.field? es key = some .null ∧ Value.field? fs key = none := by
  induction h with
  | nil => exact .inl rfl
  | kept e _ ih =>
      obtain ⟨k, v⟩ := e
      unfold Value.field? at ih ⊢
      by_cases hk : k = .text key
      · subst hk
        exact .inl (by rw [Value.lookup?_cons_self, Value.lookup?_cons_self])
      · rwa [Value.lookup?_cons_other hk, Value.lookup?_cons_other hk]
  | @dropped k _ _ hk h ih =>
      by_cases hkey : k = .text key
      · subst hkey
        exact .inr ⟨Value.lookup?_cons_self _ _, field?_eq_none fun e he => hk e (h.subset he)⟩
      · unfold Value.field? at ih ⊢
        rwa [Value.lookup?_cons_other hkey]

/-- To a lookup that takes null for nothing they are the same. -/
lemma Thinned.field_eq (h : Thinned es fs) (key : String) : Value.field fs key = Value.field es key := by
  rw [Value.field, Value.field]
  rcases h.found key with heq | ⟨hnull, hnone⟩
  · rw [heq]
  · rw [hnull, hnone]
    rfl

lemma Pruned.keys (h : Pruned es fs) : fs.map (·.1) ⊆ es.map (·.1) := by
  induction h with
  | nil => exact List.Subset.refl _
  | kept e _ ih => exact List.cons_subset_cons e.1 ih
  | dropped _ _ ih => exact List.subset_cons_of_subset _ ih
  | thinned _ _ _ ih => exact List.cons_subset_cons _ ih

/-- **What is found in a descriptor** is found in a pruned one, too, unless it was null and is not
found there, or it is a section of which members are without null entries. -/
lemma Pruned.found (h : Pruned es fs) (key : String) :
    Value.field? fs key = Value.field? es key ∨
      (Value.field? es key = some .null ∧ Value.field? fs key = none) ∨
      key ∈ sections ∧ ∃ xs ys mark mark', Value.field? es key = some (.list xs mark) ∧
        Value.field? fs key = some (.list ys mark') ∧ List.Forall₂ ThinnedValue xs ys := by
  induction h with
  | nil => exact .inl rfl
  | kept e _ ih =>
      obtain ⟨k, v⟩ := e
      unfold Value.field? at ih ⊢
      by_cases hk : k = .text key
      · subst hk
        exact .inl (by rw [Value.lookup?_cons_self, Value.lookup?_cons_self])
      · rwa [Value.lookup?_cons_other hk, Value.lookup?_cons_other hk]
  | @dropped k es fs hk h ih =>
      by_cases hkey : k = .text key
      · subst hkey
        refine .inr (.inl ⟨Value.lookup?_cons_self _ _, field?_eq_none fun f hf => ?_⟩)
        obtain ⟨e, he, hef⟩ := List.mem_map.mp (h.keys (List.mem_map_of_mem hf))
        exact hef ▸ hk e he
      · unfold Value.field? at ih ⊢
        rwa [Value.lookup?_cons_other hkey]
  | @thinned key' xs ys mark mark' _ _ hsection hxs _ ih =>
      by_cases hkey : key' = key
      · subst hkey
        exact .inr (.inr ⟨hsection, xs, ys, mark, mark', Value.lookup?_cons_self _ _,
          Value.lookup?_cons_self _ _, hxs⟩)
      · have hne : Value.text key' ≠ .text key := fun heq => hkey (Value.text.inj heq)
        unfold Value.field? at ih ⊢
        rwa [Value.lookup?_cons_other hne, Value.lookup?_cons_other hne]

lemma Pruned.field_eq (h : Pruned es fs) (hkey : key ∉ sections) :
    Value.field fs key = Value.field es key := by
  rw [Value.field, Value.field]
  rcases h.found key with heq | ⟨hnull, hnone⟩ | ⟨hsection, -⟩
  · rw [heq]
  · rw [hnull, hnone]
    rfl
  · exact absurd hsection hkey

lemma ThinnedValue.refl_all (xs : List Value) : List.Forall₂ ThinnedValue xs xs :=
  List.forall₂_same.mpr fun v _ => .same v

/-- The members of a section are those of the whole one, some without null entries. -/
lemma Pruned.members_thinned (h : Pruned es fs) (key : String) :
    List.Forall₂ ThinnedValue (members es key) (members fs key) := by
  rw [members, members, Value.field, Value.field]
  rcases h.found key with heq | ⟨hnull, hnone⟩ | ⟨-, xs, ys, mark, mark', hxs, hys, hmembers⟩
  · rw [heq]
    exact ThinnedValue.refl_all _
  · rw [hnull, hnone]
    exact .nil
  · rw [hxs, hys]
    exact hmembers

/-- A section is a list exactly if it is one in the whole descriptor. -/
lemma Pruned.listAt_follows {bad : Fault → Prop} (h : Pruned es fs) (key source : String) :
    Answer.Follows bad (fun xs ys => xs = members es key ∧ ys = members fs key)
      (listAt es key source) (listAt fs key source) := by
  have hlists : Answer.Follows bad (fun _ _ => True) (listAt es key source)
      (listAt fs key source) := by
    rw [listAt, listAt, Value.field, Value.field]
    rcases h.found key with heq | ⟨hnull, hnone⟩ | ⟨-, xs, ys, mark, mark', hxs, hys, -⟩
    · rw [heq]
      exact (Answer.Follows.of_eq rfl).imp fun _ _ _ => trivial
    · rw [hnull, hnone]
      exact .ok trivial
    · rw [hxs, hys]
      exact .ok trivial
  exact hlists.answers.imp fun xs ys hxys => ⟨listAt_eq hxys.1, listAt_eq hxys.2⟩

/-! ### Members without null entries -/

/-- A mapping has lost a null under a key. -/
def Loses (key : String) (v w : Value) : Prop :=
  ∃ es fs mark mark', v = .dict es mark ∧ w = .dict fs mark' ∧
    Value.field? es key = some .null ∧ Value.field? fs key = none

lemma presentAt_congr (h : Value.field fs key = Value.field es key) :
    presentAt fs key = presentAt es key := by rw [presentAt, presentAt, h]

lemma textAt_congr (h : Value.field fs key = Value.field es key) :
    textAt fs key source = textAt es key source := by rw [textAt, textAt, h]

/-- What a mapping has to have under a key it still has. -/
lemma entriesWith?_thinned (h : Thinned es fs) (mark mark' : Option Mark) (key : String) :
    entriesWith? (.dict es mark) key = none ∧ entriesWith? (.dict fs mark') key = none ∨
      entriesWith? (.dict es mark) key = some es ∧ entriesWith? (.dict fs mark') key = some fs := by
  simp only [entriesWith?, Value.entries?, Option.filter_some, h.field_eq]
  split
  · exact .inr ⟨rfl, rfl⟩
  · exact .inl ⟨rfl, rfl⟩

lemma parseVariable_thinned (h : ThinnedValue v w) :
    parseVariable source w = parseVariable source v := by
  cases h with
  | same _ => rfl
  | mapping h =>
      rw [parseVariable, parseVariable]
      rcases entriesWith?_thinned h _ _ "name" with ⟨hes, hfs⟩ | ⟨hes, hfs⟩ <;> rw [hes, hfs]
      simp only [textAt_congr (h.field_eq _), presentAt_congr (h.field_eq _)]

lemma parseItem_thinned (h : ThinnedValue v w) : parseItem source w = parseItem source v := by
  cases h with
  | same _ => rfl
  | mapping h =>
      rw [parseItem, parseItem]
      rcases entriesWith?_thinned h _ _ "id" with ⟨hes, hfs⟩ | ⟨hes, hfs⟩ <;> rw [hes, hfs]
      simp only [textAt_congr (h.field_eq _), presentAt_congr (h.field_eq _)]

lemma parseMessage_thinned (h : ThinnedValue v w) :
    parseMessage source w = parseMessage source v := by
  cases h with
  | same _ => rfl
  | @mapping es fs h mark mark' =>
      have hmapping : ∀ (es : Entries) (mark : Option Mark),
          (if (Value.dict es mark).isText then .dict [(.text "id", .dict es mark)]
            else Value.dict es mark) = .dict es mark := fun _ _ => rfl
      rw [parseMessage, parseMessage, hmapping, hmapping]
      rcases entriesWith?_thinned h mark mark' "id" with ⟨hes, hfs⟩ | ⟨hes, hfs⟩ <;>
        simp only [hes, hfs, presentAt_congr (h.field_eq _)]

/-! ### Nodes without null entries -/

/-- What a node of a known kind is, given its id and its name: the references that it carries are
found by `reference`. -/
def nodeOf? (reference : String → Answer Value) : Value → Option (Value → Value → Answer Value)
  | .text "node" => some fun id name => pure (.node id name)
  | .text "rule_set" => some fun id name => do
    pure (.ruleSet id name (← reference "rule_flow_group"))
  | .text "work_item" => some fun id name => do pure (.workItem id name (← reference "work_name"))
  | .text "sub_process" => some fun id name => do
    let processId ← reference "process_id"
    let processName ← reference "process_name"
    pure (.subProcess id name (processId.orElse (.text "")) (processName.orElse (.text "")))
  | _ => none

/-- A node of a known kind is read by its id and its name first. -/
lemma parseNode_known {mark : Option Mark} {kind : Value} {make : Value → Value → Answer Value}
    (hkind : (Value.field? es "kind").getD (.text "node") = kind)
    (hmake : nodeOf? (fun key => textAt es key source) kind = some make) :
    parseNode source (.dict es mark) =
      displayAt es "id" >>= fun id => displayAt es "name" >>= fun name => make id name := by
  simp only [parseNode, hkind]
  revert hmake
  fun_cases nodeOf? _ kind <;> rintro ⟨⟩ <;> simp

/-- A node of another kind is refused, by its kind alone. -/
lemma parseNode_unknown {mark : Option Mark} {kind : Value}
    (hkind : (Value.field? es "kind").getD (.text "node") = kind)
    (hmake : nodeOf? (fun key => textAt es key source) kind = none) :
    parseNode source (.dict es mark) =
      if kind.hashable then do refuse (.unknownNodeKind source (← kind.display?))
      else .error .illTyped := by
  simp only [parseNode, hkind]
  revert hmake
  fun_cases nodeOf? _ kind with
  | case5 kind hnode hruleSet hworkItem hsubProcess =>
      rintro -
      rcases hhash : kind.hashable
      · rfl
      · simp only [Bool.not_true, Bool.false_eq_true, if_false, if_true]
  | _ => rintro ⟨⟩

/-- The id and the name of a node. -/
def headings? : Value → Option (Value × Value)
  | .node id name | .ruleSet id name _ | .workItem id name _ | .subProcess id name _ _ =>
    some (id, name)
  | _ => none

lemma headings?_of_make {reference : String → Answer Value} {kind id name n : Value}
    {make : Value → Value → Answer Value} (hmake : nodeOf? reference kind = some make)
    (hn : make id name = .ok n) : headings? n = some (id, name) := by
  revert hmake
  fun_cases nodeOf? _ kind <;> rintro ⟨⟩
  · cases hn
    rfl
  · obtain ⟨group, -, hn⟩ := Answer.bind_eq_ok_iff.mp hn
    cases hn
    rfl
  · obtain ⟨work, -, hn⟩ := Answer.bind_eq_ok_iff.mp hn
    cases hn
    rfl
  · obtain ⟨processId, -, hn⟩ := Answer.bind_eq_ok_iff.mp hn
    obtain ⟨processName, -, hn⟩ := Answer.bind_eq_ok_iff.mp hn
    cases hn
    rfl

/-- Whether a node can be made does not depend on its id and its name. -/
lemma make_follows {bad : Fault → Prop} {reference : String → Answer Value} {kind : Value}
    {make : Value → Value → Answer Value} (hmake : nodeOf? reference kind = some make)
    (a b a' b' : Value) : Answer.Follows bad (fun _ _ => True) (make a b) (make a' b') := by
  revert hmake
  fun_cases nodeOf? _ kind <;> rintro ⟨⟩
  · exact .ok trivial
  · exact .bind_same fun _ => .ok trivial
  · exact .bind_same fun _ => .ok trivial
  · exact .bind_same fun _ => .bind_same fun _ => .ok trivial

/-- The id and the name of a node are the texts of what stands there. -/
lemma headings?_of_parseNode {mark : Option Mark} {n : Value}
    (hn : parseNode source (.dict es mark) = .ok n) : ∃ id name,
      displayAt es "id" = .ok id ∧ displayAt es "name" = .ok name ∧ headings? n = some (id, name) := by
  rcases hmake : nodeOf? (fun key => textAt es key source)
      ((Value.field? es "kind").getD (.text "node")) with _ | make
  · rw [parseNode_unknown rfl hmake] at hn
    split at hn
    · obtain ⟨t, -, hrefuse⟩ := Answer.bind_eq_ok_iff.mp hn
      cases hrefuse
    · cases hn
  · rw [parseNode_known rfl hmake] at hn
    obtain ⟨id, hid, hn⟩ := Answer.bind_eq_ok_iff.mp hn
    obtain ⟨name, hname, hn⟩ := Answer.bind_eq_ok_iff.mp hn
    exact ⟨id, name, hid, hname, headings?_of_make hmake hn⟩

/-- Equal nodes have equal ids and names. -/
lemma same_headings {n m a b a' b' : Value} (h : m.same n = true) (hn : headings? n = some (a, b))
    (hm : headings? m = some (a', b')) : a'.same a = true ∧ b'.same b = true := by
  cases m <;> cases hm <;> cases n <;> simp_all [Value.same, headings?]

lemma displayAt_null (h : Value.field? es key = some .null) :
    displayAt es key = .ok (.text "None") := by
  rw [displayAt, h]
  rfl

lemma displayAt_none (h : Value.field? es key = none) : displayAt es key = .ok (.text "") := by
  rw [displayAt, h, Option.getD_none, Value.display?_text]
  rfl

lemma displayAt_follows {bad : Fault → Prop} (h : Thinned es fs) (key : String) :
    Answer.Follows bad (fun _ _ => True) (displayAt es key) (displayAt fs key) := by
  rcases h.found key with heq | ⟨hnull, hnone⟩
  · rw [displayAt, displayAt, heq]
    exact (Answer.Follows.of_eq rfl).imp fun _ _ _ => trivial
  · rw [displayAt_null hnull, displayAt_none hnone]
    exact .ok trivial

/-- The fault of a node whose kind is null. -/
def nullKind (source : String) : Fault := .descriptor (.unknownNodeKind source "None")

lemma parseNode_null_kind {mark : Option Mark} (h : Value.field? es "kind" = some .null) :
    parseNode source (.dict es mark) = .error (nullKind source) := by
  rw [parseNode_unknown (by rw [h, Option.getD_some]) rfl]
  rfl

/-- **A node without null entries** is like the whole one, unless this has lost the kind that it is
refused for. -/
lemma parseNode_follows (h : ThinnedValue v w) :
    Answer.Follows (fun e => e = nullKind source ∧ Loses "kind" v w) (fun _ _ => True)
      (parseNode source v) (parseNode source w) := by
  cases h with
  | same _ => exact (Answer.Follows.of_eq rfl).imp fun _ _ _ => trivial
  | @mapping es fs h mark mark' =>
      rcases h.found "kind" with heq | ⟨hnull, hnone⟩
      · have htext : (fun key => textAt fs key source) = fun key => textAt es key source :=
          funext fun key => textAt_congr (h.field_eq key)
        rcases hmake : nodeOf? (fun key => textAt es key source)
            ((Value.field? es "kind").getD (.text "node")) with _ | make
        · rw [parseNode_unknown rfl hmake, parseNode_unknown (by rw [heq]) (by rw [htext, hmake])]
          exact (Answer.Follows.of_eq rfl).imp fun _ _ _ => trivial
        · rw [parseNode_known rfl hmake, parseNode_known (by rw [heq]) (by rw [htext, hmake])]
          exact (displayAt_follows h "id").bind fun a a' _ =>
            (displayAt_follows h "name").bind fun b b' _ => make_follows hmake a b a' b'
      · rw [parseNode_null_kind hnull]
        exact .spoilt ⟨rfl, es, fs, mark, mark', rfl, rfl, hnull, hnone⟩

/-- **A node without null entries** is the same if none of them was its kind, id or name. -/
lemma parseNode_eq (h : ThinnedValue v w)
    (hkept : ∀ key ∈ ["kind", "id", "name"], ¬Loses key v w) :
    parseNode source w = parseNode source v := by
  cases h with
  | same _ => rfl
  | @mapping es fs h mark mark' =>
      have hfound : ∀ key ∈ ["kind", "id", "name"], Value.field? fs key = Value.field? es key :=
        fun key hkey => (h.found key).resolve_right fun ⟨hnull, hnone⟩ =>
          hkept key hkey ⟨es, fs, mark, mark', rfl, rfl, hnull, hnone⟩
      have hid : displayAt fs "id" = displayAt es "id" := by
        rw [displayAt, displayAt, hfound "id" (by decide)]
      have hname : displayAt fs "name" = displayAt es "name" := by
        rw [displayAt, displayAt, hfound "name" (by decide)]
      have htext : (fun key => textAt fs key source) = fun key => textAt es key source :=
        funext fun key => textAt_congr (h.field_eq key)
      rcases hmake : nodeOf? (fun key => textAt es key source)
          ((Value.field? es "kind").getD (.text "node")) with _ | make
      · rw [parseNode_unknown rfl hmake, parseNode_unknown (by rw [hfound "kind" (by decide)])
          (by rw [htext, hmake])]
      · rw [parseNode_known rfl hmake, parseNode_known (by rw [hfound "kind" (by decide)])
          (by rw [htext, hmake]), hid, hname]

/-- A node that has lost its id or its name is another one. -/
lemma parseNode_other {n m : Value} (h : Loses "id" v w ∨ Loses "name" v w)
    (hn : parseNode source v = .ok n) (hm : parseNode source w = .ok m) : m.same n = false := by
  rw [Bool.eq_false_iff]
  intro hsame
  have hnone : (Value.text "").same (.text "None") = false := by
    rw [Bool.eq_false_iff, Ne, Value.same_text_left, Value.text.injEq]
    decide
  rcases h with ⟨es, fs, mark, mark', rfl, rfl, hnull, hlost⟩ |
    ⟨es, fs, mark, mark', rfl, rfl, hnull, hlost⟩
  all_goals
    obtain ⟨a, b, ha, hb, hheadings⟩ := headings?_of_parseNode hn
    obtain ⟨a', b', ha', hb', hheadings'⟩ := headings?_of_parseNode hm
    obtain ⟨hid, hname⟩ := same_headings hsame hheadings hheadings'
  · cases ha.symm.trans (displayAt_null hnull)
    cases ha'.symm.trans (displayAt_none hlost)
    exact Bool.false_ne_true (hnone.symm.trans hid)
  · cases hb.symm.trans (displayAt_null hnull)
    cases hb'.symm.trans (displayAt_none hlost)
    exact Bool.false_ne_true (hnone.symm.trans hname)

/-! ### The whole descriptor -/

lemma textsAt_congr {fs : Entries} (h : Value.field fs key = Value.field es key) :
    textsAt fs key source = textsAt es key source := by
  rw [textsAt, textsAt, listAt, listAt, h]

lemma mappingAt_congr {fs : Entries} (h : Value.field fs key = Value.field es key) :
    mappingAt fs key source = mappingAt es key source := by rw [mappingAt, mappingAt, h]

section Follow

variable {β γ : Type} {bad : Fault → Prop} {f : Value → Answer β} {k k' : List β → Answer γ}
  {S : γ → γ → Prop}

/-- The members of a section are read, and then the rest. -/
lemma Pruned.bind_members {R : List β → List β → Prop} (h : Pruned es fs) {key : String}
    (hmembers : Answer.Follows bad R ((members es key).mapM f) ((members fs key).mapM f))
    (hk : ∀ xs ys, R xs ys → Answer.Follows bad S (k xs) (k' ys)) :
    Answer.Follows bad S (listAt es key source >>= fun xs => xs.mapM f >>= k)
      (listAt fs key source >>= fun ys => ys.mapM f >>= k') := by
  refine (h.listAt_follows key source).bind fun xs ys hxys => ?_
  obtain ⟨rfl, rfl⟩ := hxys
  exact hmembers.bind hk

/-- The same, where each member is read as in the whole descriptor. -/
lemma Pruned.bind_section (h : Pruned es fs) {key : String}
    (hf : ∀ {v w}, ThinnedValue v w → f w = f v)
    (hk : ∀ xs, Answer.Follows bad S (k xs) (k' xs)) :
    Answer.Follows bad S (listAt es key source >>= fun xs => xs.mapM f >>= k)
      (listAt fs key source >>= fun ys => ys.mapM f >>= k') := by
  refine h.bind_members (Answer.Follows.mapM ((h.members_thinned key).imp fun v w hvw =>
    Answer.Follows.of_eq (hf hvw))) fun xs ys hxys => ?_
  rw [List.forall₂_eq_eq_eq] at hxys
  exact hxys ▸ hk xs

end Follow

/-- **A descriptor without null entries** is read like the whole one, as far as its nodes are. -/
lemma parse_follows {bad : Fault → Prop} {S : List Value → List Value → Prop} (h : Pruned es fs)
    (mark mark' : Option Mark) (hnodes : Answer.Follows bad S
      ((members es "nodes").mapM (parseNode source)) ((members fs "nodes").mapM (parseNode source))) :
    Answer.Follows bad (fun p q => ∃ ns ms, S ns ms ∧ p.nodes = .list ns ∧
      q = { p with nodes := .list ms }) (parse source (.dict es mark))
      (parse source (.dict fs mark')) := by
  have hfield : ∀ key, key ∉ sections → Value.field fs key = Value.field es key :=
    fun key hkey => h.field_eq hkey
  have htexts : ∀ key, key ∉ sections → textsAt fs key source = textsAt es key source :=
    fun key hkey => textsAt_congr (h.field_eq hkey)
  simp only [parse]
  rw [hfield "id" (by decide), hfield "metadata" (by decide),
    presentAt_congr (hfield "id" (by decide)), presentAt_congr (hfield "name" (by decide)),
    mappingAt_congr (hfield "globals" (by decide)), htexts "imports" (by decide),
    htexts "function_imports" (by decide), htexts "signals" (by decide)]
  split
  · exact .error
  refine .bind_same fun id => .bind_same fun name => .bind_same fun metadata =>
    .bind_same fun globals₀ => .bind_same fun globals => .bind_same fun imports =>
    .bind_same fun functions => h.bind_members hnodes fun ns ms hnodes => ?_
  refine h.bind_section parseVariable_thinned fun vars =>
    h.bind_section parseItem_thinned fun items => .bind_same fun signals =>
    h.bind_section parseMessage_thinned fun messages => .ok ⟨ns, ms, hnodes, rfl, rfl⟩

/-- A node of a descriptor has lost a null under a key. -/
def NodeLoses (key : String) (es fs : Entries) : Prop :=
  ∃ v w, (v, w) ∈ (members es "nodes").zip (members fs "nodes") ∧ Loses key v w

/-- The nodes are read alike, unless one has lost the kind that it is refused for. -/
lemma Pruned.nodes_follow (h : Pruned es fs) (source : String) :
    Answer.Follows (fun e => e = nullKind source ∧ NodeLoses "kind" es fs)
      (fun ns ms => (members es "nodes").mapM (parseNode source) = .ok ns ∧
        (members fs "nodes").mapM (parseNode source) = .ok ms)
      ((members es "nodes").mapM (parseNode source))
      ((members fs "nodes").mapM (parseNode source)) := by
  obtain ⟨hlength, hthinned⟩ := List.forall₂_iff_zip.mp (h.members_thinned "nodes")
  refine Answer.Follows.answers (R := List.Forall₂ fun _ _ => True) (.mapM ?_)
  refine List.forall₂_iff_zip.mpr ⟨hlength, fun {v w} hvw => ?_⟩
  exact (parseNode_follows (hthinned hvw)).weaken fun e he => ⟨he.1, v, w, hvw, he.2⟩

/-- Lists that are equal place by place. -/
lemma exists_same {f : Value → Answer Value} {xs ys ns ms : List Value}
    (hns : List.Forall₂ (fun x n => f x = .ok n) xs ns)
    (hms : List.Forall₂ (fun y m => f y = .ok m) ys ms) (hsame : Value.sameList ms ns = true)
    {v w : Value} (hvw : (v, w) ∈ xs.zip ys) :
    ∃ n m, f v = .ok n ∧ f w = .ok m ∧ m.same n = true := by
  induction hns generalizing ys ms with
  | nil => simp at hvw
  | @cons x n xs ns hn _ ih =>
      cases hms with
      | nil => simp at hvw
      | @cons y m ys ms hm hms =>
          rw [Value.sameList, Bool.and_eq_true] at hsame
          rcases List.mem_cons.mp hvw with heq | hvw
          · cases heq
            exact ⟨n, m, hn, hm, hsame.1⟩
          · exact ih hms hsame.2 hvw

/-- **Null and absence.** Leaving null entries out of a descriptor, and of its nodes, variables, item
definitions and messages, changes nothing if no node loses its kind, its id or its name. A process
is read as before, but as another one if a node loses its id or its name; a descriptor is refused as
before, unless it was refused for a null kind that a node loses. -/
theorem parse_pruned (h : Pruned es fs) (source : String) (mark mark' : Option Mark) :
    ((∀ key ∈ ["kind", "id", "name"], ¬NodeLoses key es fs) →
      parse source (.dict fs mark') = parse source (.dict es mark)) ∧
    (∀ p, parse source (.dict es mark) = .ok p → ¬NodeLoses "kind" es fs ∧
      ∃ q, parse source (.dict fs mark') = .ok q ∧ q = { p with nodes := q.nodes } ∧
        (NodeLoses "id" es fs ∨ NodeLoses "name" es fs → q.nodes.same p.nodes = false)) ∧
    ∀ e, parse source (.dict es mark) = .error e → parse source (.dict fs mark') = .error e ∨
      e = nullKind source ∧ NodeLoses "kind" es fs := by
  have hfollows := parse_follows h mark mark' (h.nodes_follow source)
  refine ⟨fun hkept => ?_, fun p hp => ?_, fun e he => ?_⟩
  · obtain ⟨hlength, hthinned⟩ := List.forall₂_iff_zip.mp (h.members_thinned "nodes")
    have hnodes : Answer.Follows (fun _ => False) (· = ·)
        ((members es "nodes").mapM (parseNode source))
        ((members fs "nodes").mapM (parseNode source)) := by
      refine (Answer.Follows.mapM (S := (· = ·)) ?_).imp fun _ _ hsame =>
        List.forall₂_eq_eq_eq ▸ hsame
      refine List.forall₂_iff_zip.mpr ⟨hlength, fun {v w} hvw => ?_⟩
      exact .of_eq (parseNode_eq (hthinned hvw) fun key hkey hloses =>
        hkept key hkey ⟨v, w, hvw, hloses⟩)
    refine ((parse_follows h mark mark' hnodes).imp fun p q hpq => ?_).eq
    obtain ⟨ns, ms, rfl, hns, rfl⟩ := hpq
    rw [← hns]
  · rw [hp] at hfollows
    obtain ⟨q, hq, ns, ms, ⟨hns, hms⟩, hpns, rfl⟩ := hfollows.of_ok
    refine ⟨?_, _, hq, rfl, fun hloses => ?_⟩
    · rintro ⟨_, w, hvw, es', fs', mark, mark', rfl, -, hnull, -⟩
      obtain ⟨n, hn⟩ := Answer.mapM_ok_iff.mp ⟨ns, hns⟩ _ (List.of_mem_zip hvw).1
      exact nomatch (parseNode_null_kind hnull).symm.trans hn
    · rw [Bool.eq_false_iff, hpns, Value.same]
      intro hsame
      obtain ⟨v, w, hvw, hloses⟩ : ∃ v w, (v, w) ∈ (members es "nodes").zip (members fs "nodes") ∧
          (Loses "id" v w ∨ Loses "name" v w) := by
        rcases hloses with ⟨v, w, hvw, hid⟩ | ⟨v, w, hvw, hname⟩
        exacts [⟨v, w, hvw, .inl hid⟩, ⟨v, w, hvw, .inr hname⟩]
      obtain ⟨n, m, hn, hm, hnm⟩ := exists_same (Answer.mapM_eq_ok_iff.mp hns)
        (Answer.mapM_eq_ok_iff.mp hms) hsame hvw
      rw [parseNode_other hloses hn hm] at hnm
      cases hnm
  · rw [he] at hfollows
    exact hfollows.of_error

lemma exists_of_map_eq_ok {α β : Type} {a : Answer α} {f : α → β} {y : β} (h : a.map f = .ok y) :
    ∃ x, a = .ok x ∧ f x = y := by
  rcases a with e | x
  · cases h
  · exact ⟨x, rfl, Except.ok.inj h⟩

/-- A descriptor of one node. -/
def oneNode (node : Entries) : Entries :=
  [(.text "id", .text "P"), (.text "nodes", .list [.dict node])]

/-- A null entry in a node is left out. -/
lemma pruned_oneNode (key : String) (node : Entries)
    (hkey : ∀ e ∈ node, e.1.same (.text key) = false) :
    Pruned (oneNode ((.text key, .null) :: node)) (oneNode node) := by
  have hself : ∀ es : Entries, Thinned es es := fun es => by
    induction es with
    | nil => exact .nil
    | cons e es ih => exact .kept e ih
  exact .kept _ (.thinned (by decide) (.cons (.mapping (.dropped hkey (hself node))) .nil) .nil)

lemma members_oneNode (node : Entries) : members (oneNode node) "nodes" = [.dict node] := by
  have hother : Value.text "id" ≠ .text "nodes" := by simp
  rw [oneNode, members, Value.field, Value.field?, Value.lookup?_cons_other hother,
    Value.lookup?_cons_self]
  rfl

theorem parse_pruned_work_name :
    let node := [(.text "kind", .text "work_item")]
    Pruned (oneNode ((.text "work_name", .null) :: node)) (oneNode node) ∧
      parse "<document>" (.dict (oneNode node)) =
        parse "<document>" (.dict (oneNode ((.text "work_name", .null) :: node))) := by
  intro node
  have hpruned := pruned_oneNode "work_name" node (by simp [node, Bool.eq_false_iff])
  refine ⟨hpruned, (parse_pruned hpruned "<document>" none none).1 fun key hkey => ?_⟩
  rintro ⟨v, w, hvw, es, fs, mark, mark', hv, hw, hnull, -⟩
  rw [members_oneNode, members_oneNode, List.zip_cons_cons, List.zip_nil_left,
    List.mem_singleton] at hvw
  cases hvw
  cases hv
  -- the entry that is left out stands under another key
  have hother : Value.text "work_name" ≠ .text key := by
    fin_cases hkey <;> simp
  rw [Value.field?, Value.lookup?_cons_other hother] at hnull
  simp [node, Value.lookup?, List.find?_singleton] at hnull

/-- **A null id, name or kind of a node is not read as absent**: the id becomes the text of null, and
a null kind is none of those that are known. -/
theorem parse_tells_null :
    (Pruned (oneNode [(.text "id", .null)]) (oneNode []) ∧ ∃ p q,
      parse "<document>" (.dict (oneNode [(.text "id", .null)])) = .ok p ∧
      parse "<document>" (.dict (oneNode [])) = .ok q ∧ q.nodes.same p.nodes = false) ∧
    Pruned (oneNode [(.text "kind", .null)]) (oneNode []) ∧
      parse "<document>" (.dict (oneNode [(.text "kind", .null)])) =
        .error (nullKind "<document>") := by
  refine ⟨⟨pruned_oneNode "id" [] (List.forall_mem_nil _), ?_⟩,
    pruned_oneNode "kind" [] (List.forall_mem_nil _), ?_⟩
  · have hnull : (parse "<document>" (.dict (oneNode [(.text "id", .null)]))).map (·.nodes) =
        .ok (.list [.node (.text "None") (.text "")]) := by cbv
    have hnone : (parse "<document>" (.dict (oneNode []))).map (·.nodes) =
        .ok (.list [.node (.text "") (.text "")]) := by cbv
    obtain ⟨p, hp, hpnodes⟩ := exists_of_map_eq_ok hnull
    obtain ⟨q, hq, hqnodes⟩ := exists_of_map_eq_ok hnone
    refine ⟨p, q, hp, hq, ?_⟩
    rw [hpnodes, hqnodes]
    cbv
  · cbv

end Descriptor
end Concordance

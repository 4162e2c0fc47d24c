import Mathlib
import Concordance.Proofs.Contents
import Concordance.Proofs.Dialects

/-!
When a compiler can read a process, and when a dialect can read its bag.

* `Value.IsNames` : a collection of texts that is no text itself. `decodeStrings_ok_iff`,
  `decodeMapping_ok_iff` : exactly what the typed reads of a bag let through.
* `ProcessDefinition.accepted_iff` : a compiler can read a process exactly if its collections are of
  the right shape, field by field.
* `Contributor.contribute_ok_iff` : a dialect can read a bag exactly if it holds null or names under
  each of its keys. `Contributor.contribute_error_iff`, `Contributor.refusesKey_contribute` : else
  it fails, with a fault that names one of them.
-/

namespace Concordance

/-! ### Sequences of answers -/

namespace Answer

variable {α β : Type}

/-- A sequence of two answers is an answer if both are. -/
lemma bind_eq_ok_iff {a : Answer α} {f : α → Answer β} {y : β} :
    (a >>= f) = .ok y ↔ ∃ x, a = .ok x ∧ f x = .ok y := by
  rcases a with e | x
  · simp [bind, Except.bind]
  · simp [bind, Except.bind]

/-- After an answer the next one is asked for. -/
lemma bind_of_ok {a : Answer α} {f : α → Answer β} {x : α} (h : a = .ok x) : (a >>= f) = f x := by
  rw [h]
  rfl

/-- What is made of an answer is there if that is. -/
lemma exists_bind_pure_iff {a : Answer α} {f : α → β} :
    (∃ y, (a >>= fun x => pure (f x)) = .ok y) ↔ ∃ x, a = .ok x := by
  rcases a with e | x
  · exact iff_of_false nofun nofun
  · exact iff_of_true ⟨_, rfl⟩ ⟨_, rfl⟩

/-- A list is let through if each of its members is. -/
lemma mapM_ok_iff {f : α → Answer β} : ∀ {xs : List α},
    (∃ ys, xs.mapM f = .ok ys) ↔ ∀ x ∈ xs, ∃ y, f x = .ok y
  | [] => by simp [pure, Except.pure]
  | x :: xs => by
      rw [List.mapM_cons, List.forall_mem_cons, ← @mapM_ok_iff f xs]
      rcases hx : f x with e | y
      · simp [bind, Except.bind]
      · rcases hxs : xs.mapM f with e | ys
        · simp [bind, Except.bind]
        · simp [bind, Except.bind, pure, Except.pure]

/-- The answers of a list are those of its members. -/
lemma mapM_eq_ok_iff {f : α → Answer β} : ∀ {xs : List α} {ys : List β},
    xs.mapM f = .ok ys ↔ List.Forall₂ (fun x y => f x = .ok y) xs ys
  | [], ys => by
      rw [List.mapM_nil, List.forall₂_nil_left_iff]
      exact ⟨fun h => (Except.ok.inj h).symm, fun h => congrArg _ h.symm⟩
  | x :: xs, ys => by
      rw [List.mapM_cons, bind_eq_ok_iff, List.forall₂_cons_left_iff]
      refine exists_congr fun y => ?_
      rw [bind_eq_ok_iff]
      constructor
      · rintro ⟨hy, zs, hzs, h⟩
        cases h
        exact ⟨zs, hy, mapM_eq_ok_iff.mp hzs, rfl⟩
      · rintro ⟨zs, hy, hzs, rfl⟩
        exact ⟨hy, zs, mapM_eq_ok_iff.mpr hzs, rfl⟩

/-- A list is refused by the first of its members that is. -/
lemma mapM_eq_error_iff {f : α → Answer β} {e : Fault} : ∀ {xs : List α}, xs.mapM f = .error e ↔
    ∃ before x after, xs = before ++ x :: after ∧ (∀ y ∈ before, ∃ z, f y = .ok z) ∧
      f x = .error e
  | [] => by simp [pure, Except.pure]
  | x :: xs => by
      rw [List.mapM_cons]
      rcases hx : f x with e' | y
      · constructor
        · intro h
          cases h
          exact ⟨[], x, xs, rfl, by simp, hx⟩
        · rintro ⟨before, z, after, hxs, hbefore, hz⟩
          cases before with
          | nil =>
              obtain ⟨rfl, rfl⟩ := List.cons.inj hxs
              exact hx.symm.trans hz ▸ rfl
          | cons w before =>
              obtain ⟨rfl, -⟩ := List.cons.inj hxs
              obtain ⟨_, hok⟩ := hbefore x (by simp)
              cases hx.symm.trans hok
      · have hrest : (Except.ok y >>= fun y => xs.mapM f >>= fun ys => pure (y :: ys) :
            Answer (List β)) = .error e ↔ xs.mapM f = .error e := by
          rcases xs.mapM f with e' | ys
          · exact Iff.rfl
          · exact iff_of_false nofun nofun
        rw [hrest, mapM_eq_error_iff]
        constructor
        · rintro ⟨before, z, after, rfl, hbefore, hz⟩
          exact ⟨x :: before, z, after, rfl, List.forall_mem_cons.mpr ⟨⟨y, hx⟩, hbefore⟩, hz⟩
        · rintro ⟨before, z, after, hxs, hbefore, hz⟩
          cases before with
          | nil =>
              obtain ⟨rfl, -⟩ := List.cons.inj hxs
              cases hx.symm.trans hz
          | cons w before =>
              obtain ⟨rfl, rfl⟩ := List.cons.inj hxs
              exact ⟨before, z, after, rfl, (List.forall_mem_cons.mp hbefore).2, hz⟩

/-- A list is checked if each of its members is. -/
lemma forM_ok_iff {f : α → Answer PUnit} : ∀ {xs : List α},
    xs.forM f = .ok ⟨⟩ ↔ ∀ x ∈ xs, f x = .ok ⟨⟩
  | [] => by simp [pure, Except.pure]
  | x :: xs => by
      rw [List.forall_mem_cons, ← @forM_ok_iff f xs]
      change (f x >>= fun _ => xs.forM f) = _ ↔ _
      rcases hx : f x with e | ⟨⟩
      · simp [bind, Except.bind]
      · simp [bind, Except.bind]

end Answer

/-! ### Typed reads -/

namespace Value

/-- A collection of texts other than a text. -/
structure IsNames (v : Value) : Prop where
  noText : v.isText = false
  noBytes : ∀ bs, v ≠ .bytes bs
  members : ∃ xs, v.members? = some xs ∧ ∀ x ∈ xs, x.isText

/-- A variable. -/
def IsVar (v : Value) : Prop := ∃ n t m, v = .var n t m

/-- An item definition. -/
def IsItem (v : Value) : Prop := ∃ i s, v = .item i s

lemma fits_item_iff {v : Value} : Shape.item.fits v = true ↔ v.IsItem := by
  cases v <;> simp [Shape.fits, IsItem]

end Value

section Reads

variable {key : String} {v : Value}

lemma decodeString_ok_iff : (∃ s, decodeString key v = .ok s) ↔ v.isText := by
  cases v <;> simp [decodeString, Value.isText, Value.text?]

/-- **What is read as a collection of texts**: null, or names. -/
lemma decodeStrings_ok_iff :
    (∃ names, decodeStrings key v = .ok names) ↔ v = .null ∨ v.IsNames := by
  rw [decodeStrings.eq_def]
  split
  · exact iff_of_true ⟨none, rfl⟩ (.inl rfl)
  · refine iff_of_false (by simp) ?_
    rintro (h | h)
    · cases h
    · cases h.noText
  · next bs =>
      refine iff_of_false (by simp) ?_
      rintro (h | h)
      · cases h
      · exact h.noBytes bs rfl
  -- any other value is read member by member
  · next hnull htext hbytes =>
      have hno : v.isText = false := Bool.eq_false_iff.mpr fun h =>
        (Value.isText_iff.mp h).elim htext
      rw [or_iff_right hnull]
      split
      · next hm =>
          refine iff_of_false (by simp) fun h => ?_
          obtain ⟨xs, hxs, -⟩ := h.members
          cases hm.symm.trans hxs
      · next xs hm =>
          have hmembers : (∃ names, (do
              let names ← xs.mapM (decodeString key)
              pure (some names.eraseDups) : Answer _) = .ok names) ↔ ∀ x ∈ xs, x.isText := by
            simp only [← @decodeString_ok_iff key, ← Answer.mapM_ok_iff]
            rcases xs.mapM (decodeString key) with e | names
            · simp [bind, Except.bind]
            · simp [bind, Except.bind, pure, Except.pure]
          rw [hmembers]
          constructor
          · exact fun h => ⟨hno, hbytes, xs, hm, h⟩
          · intro h
            obtain ⟨ys, hys, hall⟩ := h.members
            obtain rfl := Option.some.inj (hm.symm.trans hys)
            exact hall

lemma checkEntry_ok_iff {shape : Option Shape} {e : Value × Value} :
    checkEntry key shape e = .ok () ↔ e.1.isText ∧ ∀ s, shape = some s → s.fits e.2 = true := by
  rw [checkEntry.eq_def]
  rcases e.1.isText with _ | _
  · simp
  · rcases shape with _ | s
    · simp
    · simp

/-- **What is read as a mapping**: entries with textual keys and values of the shape. -/
lemma decodeMapping_ok_iff {es : List (Value × Value)} {mark : Option Mark}
    {shape : Option Shape} : (∃ m, decodeMapping key (.dict es mark) shape = .ok m) ↔
      ∀ e ∈ es, e.1.isText ∧ ∀ s, shape = some s → s.fits e.2 = true := by
  have hread : decodeMapping key (.dict es mark) shape =
      (es.forM (checkEntry key shape) >>= fun _ => pure (some es)) := rfl
  rw [hread]
  simp only [← @checkEntry_ok_iff key, ← Answer.forM_ok_iff]
  rcases es.forM (checkEntry key shape) with e | ⟨⟩
  · simp [bind, Except.bind]
  · simp [bind, Except.bind, pure, Except.pure]

end Reads

/-! ### What a compiler can read -/

namespace Observation

variable {v : Value} {xs : List Value} {es : List (Value × Value)}

lemma isSome_toOption_map {α β : Type} {a : Answer α} {f : α → β} :
    (a.toOption.map f).isSome ↔ ∃ x, a = .ok x := by
  rcases a with e | x
  · simp [Except.toOption]
  · simp [Except.toOption]

lemma decodes_var : (metadata Build.variableKey v).Decodes ↔ v.IsVar := by
  have hvar : (var? (metadata Build.variableKey v)).isSome ↔ v.IsVar := by
    simp only [var?, if_true]
    cases v <;> simp [Variable.ofValue?, Value.IsVar]
  simpa [Decodes] using hvar

lemma decodes_items : (metadata Build.itemsKey (.dict es)).Decodes ↔
    ∀ e ∈ es, e.1.isText ∧ e.2.IsItem := by
  have hitems : (items? (metadata Build.itemsKey (.dict es))).isSome ↔
      ∀ e ∈ es, e.1.isText ∧ e.2.IsItem := by
    simp only [items?, if_true, isSome_toOption_map, decodeMapping_ok_iff, ← Value.fits_item_iff]
    simp
  simpa [Decodes] using hitems

lemma decodes_signals : (metadata Build.signalsKey (.set false xs)).Decodes ↔
    ∀ x ∈ xs, x.isText := by
  have hnames : (Value.set false xs).IsNames ↔ ∀ x ∈ xs, x.isText :=
    ⟨fun ⟨_, _, _, hys, h⟩ => by cases hys; exact h, fun h => ⟨rfl, nofun, xs, rfl, h⟩⟩
  have hsignals : (signals? (metadata Build.signalsKey (.set false xs))).isSome ↔
      ∀ x ∈ xs, x.isText := by
    simp only [signals?, if_true, isSome_toOption_map, decodeStrings_ok_iff, hnames]
    simp
  simpa [Decodes] using hsignals

lemma decodes_messages : (metadata Build.messagesKey (.dict es)).Decodes ↔
    ∀ e ∈ es, e.1.isText := by
  have hmessages : (messages? (metadata Build.messagesKey (.dict es))).isSome ↔
      ∀ e ∈ es, e.1.isText := by
    simp only [messages?, if_true, isSome_toOption_map, decodeMapping_ok_iff]
    simp
  simpa [Decodes] using hmessages

/-- A collection that may be absent is made and decoded, if it is present. -/
lemma offered_decodes_iff {α : Type} {a : Answer α} {o : α → Observation} {ok : α → Prop}
    (ho : ∀ x, (o x).Decodes ↔ ok x) :
    ((v.truthy → ∃ x, a = .ok x) ∧ ∀ b ∈ offered v a o, b.Decodes) ↔
      (v.truthy → ∃ x, a = .ok x ∧ ok x) := by
  unfold offered
  rcases v.truthy with _ | _
  · simp
  · rcases a with e | x
    · simp
    · simp [Except.toOption, ho]

end Observation

/-- **A compiler can read a process** exactly if its nodes and variables are collections, the latter
of variables, and its items, signals and messages, if there are any, are mappings and sets with
textual keys and members, the first of items. -/
lemma ProcessDefinition.accepted_iff {p : ProcessDefinition} : p.Accepted ↔
    p.nodes.members?.isSome ∧
    (p.vars.members?.isSome ∧ ∀ v ∈ p.vars.elements, v.IsVar) ∧
    (p.itemDefinitions.truthy → ∃ es, p.itemDefinitions.entriesOf? = .ok es ∧
      ∀ e ∈ es, e.1.isText ∧ e.2.IsItem) ∧
    (p.signals.truthy → ∃ xs, p.signals.toSet? = .ok xs ∧ ∀ x ∈ xs, x.isText) ∧
    (p.messages.truthy → ∃ es, p.messages.entriesOf? = .ok es ∧ ∀ e ∈ es, e.1.isText) := by
  rw [← Observation.offered_decodes_iff fun _ => Observation.decodes_items,
    ← Observation.offered_decodes_iff fun _ => Observation.decodes_signals,
    ← Observation.offered_decodes_iff fun _ => Observation.decodes_messages]
  have hdecodes : (∀ o ∈ p.observations, o.Decodes) ↔
      (∀ v ∈ p.vars.elements, v.IsVar) ∧
      (∀ o ∈ Observation.offered p.itemDefinitions p.itemDefinitions.entriesOf?
        fun es => .metadata Build.itemsKey (.dict es), o.Decodes) ∧
      (∀ o ∈ Observation.offered p.signals p.signals.toSet?
        fun xs => .metadata Build.signalsKey (.set false xs), o.Decodes) ∧
      ∀ o ∈ Observation.offered p.messages p.messages.entriesOf?
        fun es => .metadata Build.messagesKey (.dict es), o.Decodes := by
    have hnodes : ∀ v ∈ p.nodes.elements, (Observation.node v).Decodes := fun _ _ => trivial
    simp only [observations, List.forall_mem_append, List.forall_mem_map, Observation.decodes_var,
      iff_true_intro hnodes, true_and, and_assoc]
  constructor
  · intro h
    obtain ⟨hvars, hitems, hsignals, hmessages⟩ := hdecodes.mp h.decodes
    exact ⟨h.nodes, ⟨h.vars, hvars⟩, ⟨h.items, hitems⟩, ⟨h.signals, hsignals⟩, h.messages,
      hmessages⟩
  · rintro ⟨hn, ⟨hv, hvars⟩, ⟨hi, hitems⟩, ⟨hs, hsignals⟩, hm, hmessages⟩
    exact ⟨hn, hv, hi, hs, hm, hdecodes.mpr ⟨hvars, hitems, hsignals, hmessages⟩⟩

/-- The keys of the items of a process that can be read are texts. -/
lemma ProcessDefinition.Accepted.items_texts {p : ProcessDefinition} (h : p.Accepted) :
    ∀ e ∈ p.itemDefinitions.pairs, e.1.isText := by
  intro e he
  by_cases hitems : p.itemDefinitions.truthy = true
  · obtain ⟨es, hes, hall⟩ := (accepted_iff.mp h).2.2.1 hitems
    rw [Value.pairs, hes] at he
    exact (hall e he).1
  · rw [Value.pairs_eq_nil (Bool.eq_false_iff.mpr hitems)] at he
    cases he

/-! ### What a dialect can read -/

/-- What can be asked for a textual key is a mapping. -/
lemma Value.exists_get?_iff {v : Value} {k : String} :
    (∃ w, v.get? (.text k) = .ok w) ↔ v.isMapping := by
  rw [Value.get?, Value.mapping?, Value.isMapping]
  rcases v.entries? with _ | es
  · simp [bind, Except.bind]
  · simp [bind, Except.bind, pure, Except.pure]

namespace Contributor

variable {metadata : Value}

lemma mem_keys {c : Contributor} {k : String} :
    k ∈ c.keys ↔ present c.referencedKey = some k ∨ present c.unqualifiedKey = some k := by
  simp [keys, eq_comm]

/-- No built-in dialect reads the key that indexes are published under. -/
lemma metadataKey_not_mem : ∀ c ∈ builtinDialects, Index.metadataKey ∉ c.keys := by decide

/-- The texts under a key can be read if there is null or names. -/
lemma read_ok_iff {key : Option String} : (∃ names, read metadata key = .ok names) ↔
    ∀ k, key = some k → ∃ v, metadata.get? (.text k) = .ok v ∧ (v = .null ∨ v.IsNames) := by
  rcases key with _ | k
  · exact ⟨fun _ _ => nofun, fun _ => ⟨[], rfl⟩⟩
  · simp only [Option.some.injEq, forall_eq', ← @decodeStrings_ok_iff k, read]
    rcases metadata.get? (.text k) with e | v
    · simp [bind, Except.bind]
    · rcases hdec : decodeStrings k v with e | names
      · simp [bind, Except.bind, hdec]
      · simp [bind, Except.bind, hdec, pure, Except.pure]

/-- **A dialect can read a bag** exactly if the bag holds null or names under each of its keys. -/
lemma contribute_ok_iff {c : Contributor} : (∃ pair, c.contribute metadata = .ok pair) ↔
    ∀ k ∈ c.keys, ∃ v, metadata.get? (.text k) = .ok v ∧ (v = .null ∨ v.IsNames) := by
  simp only [mem_keys, or_imp, forall_and, ← read_ok_iff, contribute]
  rcases read metadata (present c.referencedKey) with e | referenced
  · simp [bind, Except.bind]
  · rcases read metadata (present c.unqualifiedKey) with e | unqualified
    · simp [bind, Except.bind]
    · simp [bind, Except.bind, pure, Except.pure]

/-- **A dialect cannot read a bag** exactly if the bag holds anything else under one of its keys. -/
lemma contribute_error_iff {c : Contributor} (hm : metadata.isMapping = true) :
    (∃ e, c.contribute metadata = .error e) ↔
      ∃ k ∈ c.keys, ∃ v, metadata.get? (.text k) = .ok v ∧ v ≠ .null ∧ ¬v.IsNames := by
  have hanswer : (∃ e, c.contribute metadata = .error e) ↔
      ¬∃ pair, c.contribute metadata = .ok pair := by
    rcases c.contribute metadata with e | pair
    · simp
    · simp
  rw [hanswer, contribute_ok_iff]
  constructor
  · intro h
    by_contra hno
    refine h fun k hk => ?_
    obtain ⟨v, hv⟩ := Value.exists_get?_iff (k := k).mpr hm
    refine ⟨v, hv, ?_⟩
    by_contra hbad
    rw [not_or] at hbad
    exact hno ⟨k, hk, v, hv, hbad⟩
  · rintro ⟨k, hk, v, hv, hbad⟩ hall
    obtain ⟨w, hw, hgood⟩ := hall k hk
    cases hv.symm.trans hw
    exact hgood.elim hbad.1 hbad.2

lemma refusesKey_read (hm : metadata.isMapping = true) {key : Option String} {e : Fault}
    (h : read metadata key = .error e) : ∃ k, key = some k ∧ Build.RefusesKey k e := by
  rcases key with _ | k
  · cases h
  · obtain ⟨v, hv⟩ := Value.exists_get?_iff (k := k).mpr hm
    rw [read, hv] at h
    rcases hdec : decodeStrings k v with f | names
    · simp only [hdec, bind, Except.bind] at h
      cases h
      exact ⟨k, rfl, Build.refusesKey_decodeStrings hdec⟩
    · simp only [hdec, bind, Except.bind] at h
      cases h

/-- **What a dialect fails with** on a bag names one of its keys. -/
lemma refusesKey_contribute (hm : metadata.isMapping = true) {c : Contributor} {e : Fault}
    (h : c.contribute metadata = .error e) : ∃ k ∈ c.keys, Build.RefusesKey k e := by
  rw [contribute] at h
  rcases hr : read metadata (present c.referencedKey) with f | referenced
  · simp only [hr, bind, Except.bind] at h
    cases h
    obtain ⟨k, hk, hrefuses⟩ := refusesKey_read hm hr
    exact ⟨k, mem_keys.mpr (.inl hk), hrefuses⟩
  · rcases hu : read metadata (present c.unqualifiedKey) with f | unqualified
    · simp only [hr, hu, bind, Except.bind] at h
      cases h
      obtain ⟨k, hk, hrefuses⟩ := refusesKey_read hm hu
      exact ⟨k, mem_keys.mpr (.inr hk), hrefuses⟩
    · simp only [hr, hu, bind, Except.bind] at h
      cases h

end Contributor

end Concordance

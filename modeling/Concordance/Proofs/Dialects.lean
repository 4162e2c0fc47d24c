import Concordance.Proofs.Observation

/-!
Which dialects a registry of enabled ones holds, and which names they read from a bag.

* `DialectRegistry.mem_contributors` : the registry of the enabled dialects holds the built-in
  dialects that are enabled, and no others. `DialectRegistry.exists_withDefaults` : it can be made
  if they are all known.
* `Value.namesUnder` : the texts that a bag holds under a key. `Contributor.mem_contribute` : a
  dialect that reads a bag contributes the names under its two keys.
-/

namespace Concordance

namespace DialectRegistry

/-! ### Registration -/

/-- A contributor that is placed joins those that are there. -/
lemma mem_place {c x : Contributor} : ∀ {ds : List Contributor},
    (∀ y ∈ ds, y.name = c.name → y = c) → (x ∈ place c ds ↔ x = c ∨ x ∈ ds)
  | [], _ => by simp [place]
  | d :: ds, h => by
      unfold place
      by_cases hd : d.name = c.name
      · obtain rfl := h d (by simp) hd
        simp
      · have ih := mem_place (x := x) fun y hy => h y (List.mem_cons_of_mem d hy)
        rw [if_neg (by simpa using hd), List.mem_cons, ih, List.mem_cons]
        tauto

/-- A built-in dialect is known by its name. -/
lemma builtin_eq_of_name :
    ∀ c ∈ builtinDialects, ∀ d ∈ builtinDialects, d.name = c.name → d = c := by
  decide

/-- A registry of built-in dialects holds those that were registered. -/
lemma mem_register_all {x : Contributor} : ∀ {cs : List Contributor} {r s : DialectRegistry},
    (∀ c ∈ cs, c ∈ builtinDialects) → (∀ c ∈ r.contributors, c ∈ builtinDialects) →
      cs.foldlM register r = .ok s → (x ∈ s.contributors ↔ x ∈ r.contributors ∨ x ∈ cs)
  | [], r, s, _, _, h => by
      obtain rfl : r = s := by simpa [pure, Except.pure] using h
      simp
  | c :: cs, r, s, hcs, hr, h => by
      rw [List.foldlM_cons] at h
      rcases hreg : r.register c with e | t
      · simp [hreg, bind, Except.bind] at h
      · have hplace : t.contributors = place c r.contributors := by
          unfold register at hreg
          split at hreg <;> cases hreg
          rfl
        have hmem : ∀ y, y ∈ t.contributors ↔ y = c ∨ y ∈ r.contributors := fun y => by
          rw [hplace]
          exact mem_place fun z hz hzc => builtin_eq_of_name c (hcs c (by simp)) z (hr z hz) hzc
        simp only [hreg, bind, Except.bind] at h
        rw [mem_register_all (fun d hd => hcs d (by simp [hd])) (fun d hd => ?_) h, hmem,
          List.mem_cons]
        · tauto
        · rcases (hmem d).mp hd with rfl | hd
          · exact hcs d (by simp)
          · exact hr d hd

/-- The registry of the enabled dialects holds the built-in dialects that are enabled. -/
lemma mem_contributors {enabled : List Value} {r : DialectRegistry}
    (h : withDefaults enabled = .ok r) (c : Contributor) :
    c ∈ r.contributors ↔ c ∈ builtinDialects ∧ .text c.name ∈ enabled := by
  unfold withDefaults at h
  rcases hflags : enabled.mapM isBuiltin? with e | flags
  · simp [hflags, bind, Except.bind] at h
  simp only [hflags, bind, Except.bind] at h
  split at h
  · have hfound : ∀ d, d ∈ enabled.filterMap (fun v =>
        builtinDialects.find? fun c => v.same (.text c.name)) ↔
        d ∈ builtinDialects ∧ .text d.name ∈ enabled := fun d => by
      rw [List.mem_filterMap]
      constructor
      · rintro ⟨v, hv, hd⟩
        have hsame := List.find?_some hd
        have hname : v = .text d.name := Value.same_text_right.mp hsame
        exact ⟨List.mem_of_find?_eq_some hd, hname ▸ hv⟩
      · rintro ⟨hd, hv⟩
        refine ⟨_, hv, ?_⟩
        rcases hf : builtinDialects.find? fun c => Value.same (.text d.name) (.text c.name)
          with _ | e
        · exact absurd (List.find?_eq_none.mp hf d hd) (by simp)
        · have hname : d.name = e.name := by simpa using List.find?_some hf
          have hmem := List.mem_of_find?_eq_some hf
          exact hf.trans (congrArg some (builtin_eq_of_name d hd e hmem hname.symm))
    rw [mem_register_all (fun d hd => ((hfound d).mp hd).1) (by simp) h, hfound]
    simp
  · rcases hnames : Value.texts? (((enabled.zip flags).filter fun e => !e.2).map (·.1)) <;>
      rw [hnames] at h <;> cases h

/-! Built-in dialects are never refused, since each owns its own keys. -/

/-- A key belongs to one built-in dialect. -/
lemma builtin_eq_of_key :
    ∀ c ∈ builtinDialects, ∀ d ∈ builtinDialects, ∀ k ∈ c.keys, k ∈ d.keys → d = c := by
  decide

/-- Every key of the registry is owned by the built-in dialect that it belongs to. -/
def Rightful (r : DialectRegistry) : Prop :=
  ∀ o ∈ r.owners, ∃ c ∈ builtinDialects, o.1 ∈ c.keys ∧ o.2 = c.name

/-- A built-in dialect can be registered beside others. -/
lemma Rightful.exists_register {r : DialectRegistry} (h : r.Rightful) {c : Contributor}
    (hc : c ∈ builtinDialects) : ∃ s, r.register c = .ok s ∧ s.Rightful := by
  have hfree : r.taken? c = none := by
    rw [taken?, List.findSome?_eq_none_iff]
    intro k hk
    rw [ownerOf, Option.bind_eq_none_iff]
    intro owner howner
    obtain ⟨o, ho, rfl⟩ := Option.map_eq_some_iff.mp howner
    obtain ⟨d, hd, hkd, hname⟩ := h o (List.mem_of_find?_eq_some ho)
    have hkey : o.1 = k := by simpa using List.find?_some ho
    obtain rfl := builtin_eq_of_key c hc d hd k hk (hkey ▸ hkd)
    simp [hname]
  refine ⟨_, by rw [register, hfree], fun o ho => ?_⟩
  rcases List.mem_append.mp ho with ho | ho
  · exact h o (List.mem_filter.mp ho).1
  · obtain ⟨k, hk, rfl⟩ := List.mem_map.mp ho
    exact ⟨c, hc, List.mem_eraseDups.mp hk, rfl⟩

lemma Rightful.exists_register_all : ∀ {cs : List Contributor} {r : DialectRegistry},
    r.Rightful → (∀ c ∈ cs, c ∈ builtinDialects) → ∃ s, cs.foldlM register r = .ok s
  | [], r, _, _ => ⟨r, rfl⟩
  | c :: cs, r, h, hcs => by
      rw [List.forall_mem_cons] at hcs
      obtain ⟨t, ht, hrightful⟩ := h.exists_register hcs.1
      obtain ⟨s, hs⟩ := hrightful.exists_register_all hcs.2
      exact ⟨s, by rw [List.foldlM_cons, ht]; exact hs⟩

/-- **The registry of dialects that are known can be made.** -/
lemma exists_withDefaults {enabled : List Value}
    (h : ∀ v ∈ enabled, ∃ n ∈ builtinDialectNames, v = .text n) :
    ∃ r, withDefaults enabled = .ok r := by
  have hflags : enabled.mapM isBuiltin? = .ok (enabled.map fun _ => true) := by
    induction enabled with
    | nil => rfl
    | cons v vs ih =>
        rw [List.forall_mem_cons] at h
        obtain ⟨⟨n, hn, rfl⟩, hvs⟩ := h
        have hv : isBuiltin? (.text n) = .ok true := by
          rw [isBuiltin?, if_pos (Value.hashable_text n), Except.ok.injEq, Value.memberOf_text]
          exact List.mem_map_of_mem hn
        rw [List.mapM_cons, hv, ih hvs]
        rfl
  have hunknown : ((enabled.zip (enabled.map fun _ => true)).filter fun e => !e.2) = [] := by
    rw [List.filter_eq_nil_iff]
    intro e he
    obtain ⟨v, -, htrue⟩ := List.mem_map.mp (List.of_mem_zip he).2
    simp [← htrue]
  have hfound : ∀ c ∈ enabled.filterMap (fun v =>
      builtinDialects.find? fun c => v.same (.text c.name)), c ∈ builtinDialects := fun c hc => by
    obtain ⟨v, -, hv⟩ := List.mem_filterMap.mp hc
    exact List.mem_of_find?_eq_some hv
  have hempty : Rightful {} := List.forall_mem_nil _
  obtain ⟨r, hr⟩ := hempty.exists_register_all hfound
  refine ⟨r, ?_⟩
  simp only [withDefaults, hflags, bind, Except.bind, hunknown]
  exact hr

end DialectRegistry

/-! ### Reading -/

/-- The texts that a bag holds under a key, if there is one. -/
def Value.namesUnder (bag : Value) (key : Option String) : Set String :=
  {n | ∃ k ∈ key, ∃ v, bag.get? (.text k) = .ok v ∧ .text n ∈ v.elements}

/-- The texts of a collection that can be decoded are its elements. -/
lemma mem_decodeStrings {key n : String} {v : Value} {names : Option (List String)}
    (h : decodeStrings key v = .ok names) : n ∈ names.getD [] ↔ .text n ∈ v.elements := by
  have hmade : ∀ xs, v.members? = some xs → (do
      let names ← xs.mapM (decodeString key)
      pure (some names.eraseDups) : Answer _) = .ok names →
      (n ∈ names.getD [] ↔ .text n ∈ v.elements) := fun xs hxs hdec => by
    rcases hm : xs.mapM (decodeString key) with e | decoded
    · simp [hm, bind, Except.bind] at hdec
    · obtain rfl : some decoded.eraseDups = names := by
        simpa [hm, bind, Except.bind, pure, Except.pure] using hdec
      simp [Value.elements, hxs, Build.mapM_decodeString_eq hm]
  unfold decodeStrings at h
  split at h
  · cases h
    simp [Value.elements, Value.members?]
  · cases h
  · cases h
  · split at h
    · cases h
    · rename_i xs hxs
      exact hmade xs hxs h

namespace Contributor

lemma mem_read {metadata : Value} {key : Option String} {names : List String} {n : String}
    (h : read metadata key = .ok names) : n ∈ names ↔ n ∈ metadata.namesUnder key := by
  rcases key with _ | key
  · obtain rfl : [] = names := by simpa [read] using h
    simp [Value.namesUnder]
  · unfold read at h
    rcases hv : metadata.get? (.text key) with e | v
    · simp [hv, bind, Except.bind] at h
    · rcases hd : decodeStrings key v with e | decoded
      · simp [hv, hd, bind, Except.bind] at h
      · obtain rfl : decoded.getD [] = names := by
          simpa [hv, hd, bind, Except.bind, pure, Except.pure] using h
        rw [mem_decodeStrings hd]
        simp [Value.namesUnder, hv]

/-- What a dialect contributes is what the bag holds under its two keys. -/
lemma mem_contribute {c : Contributor} {metadata : Value} {pair : Contribution}
    (h : c.contribute metadata = .ok pair) (n : String) :
    (n ∈ pair.referenced ↔ n ∈ metadata.namesUnder (present c.referencedKey)) ∧
      (n ∈ pair.unqualified ↔ n ∈ metadata.namesUnder (present c.unqualifiedKey)) := by
  unfold contribute at h
  rcases hr : read metadata (present c.referencedKey) with e | referenced
  · simp [hr, bind, Except.bind] at h
  · rcases hu : read metadata (present c.unqualifiedKey) with e | unqualified
    · simp [hr, hu, bind, Except.bind] at h
    · simp only [hr, hu, bind, Except.bind, pure, Except.pure, Except.ok.injEq] at h
      subst h
      exact ⟨mem_read hr, mem_read hu⟩

/-- The keys of a built-in dialect are not empty. -/
lemma present_builtin : ∀ c ∈ builtinDialects,
    present c.referencedKey = c.referencedKey ∧ present c.unqualifiedKey = c.unqualifiedKey := by
  decide

end Contributor

end Concordance

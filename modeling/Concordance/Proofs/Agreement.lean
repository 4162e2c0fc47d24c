import Concordance.Proofs.Finish

/-!
Two indexes that show the same findings are equal, and are written and hashed alike.

* `Index.Agree` : equal as values, with one written form, one content and one fingerprint.
* `Index.Shows.agree` : two indexes of one process that show the same findings agree. Their lists
  have the same members in some order; equality looks at members alone, and all else sorts first.
-/

namespace Concordance

/-! ### The order of members leaves no trace -/

lemma PartType.label_injective : Function.Injective PartType.label := by
  intro s t h
  cases s <;> cases t <;> first | rfl | exact absurd h (by decide)

lemma ResourceType.label_injective : Function.Injective ResourceType.label := by
  intro s t h
  cases s <;> cases t <;> first | rfl | exact absurd h (by decide)

lemma Part.key_injective : Function.Injective Part.key := fun ⟨_, _⟩ ⟨_, _⟩ h => by
  obtain ⟨ht, hn⟩ := Prod.mk.inj h
  rw [Part.mk.injEq]
  exact ⟨hn, PartType.label_injective ht⟩

lemma SharedReference.key_injective : Function.Injective SharedReference.key :=
  fun ⟨_, _⟩ ⟨_, _⟩ h => by
    obtain ⟨ht, hn⟩ := Prod.mk.inj h
    rw [SharedReference.mk.injEq]
    exact ⟨hn, PartType.label_injective ht⟩

lemma ResourceReference.key_injective : Function.Injective ResourceReference.key :=
  fun ⟨_, _⟩ ⟨_, _⟩ h => by
    obtain ⟨ht, hn⟩ := Prod.mk.inj h
    rw [ResourceReference.mk.injEq]
    exact ⟨hn, ResourceType.label_injective ht⟩

lemma Part.same_toValue (m n : String) :
    Value.same (ofName m).toValue (ofName n).toValue = true ↔ m = n := by
  simp [toValue, ofName, Value.same, Value.text?_eq_some, eq_comm (a := n)]

lemma SharedReference.same_toValue (x y : String × PartType) :
    Value.same (ofPair x).toValue (ofPair y).toValue = true ↔ x = y := by
  simp [toValue, ofPair, Value.same, Value.text?_eq_some, Prod.ext_iff, eq_comm (a := y.1)]

lemma ResourceReference.same_toValue (x y : String × ResourceType) :
    Value.same (ofPair x).toValue (ofPair y).toValue = true ↔ x = y := by
  simp [toValue, ofPair, Value.same, Value.text?_eq_some, Prod.ext_iff, eq_comm (a := y.1)]

section Sorted

variable {S : Set String} {T : Set (String × PartType)} {U : Set (String × ResourceType)}

/-- Two lists of the same parts are sorted alike. -/
lemma sortParts?_congr {ps qs : List Part} (h : Enumerates Part.ofName ps S)
    (h' : Enumerates Part.ofName qs S) : sortParts? ps = sortParts? qs := by
  refine Value.sortPairs?_congr Part.key_injective (fun q hq => ?_) (h.perm h')
  obtain ⟨n, -, rfl⟩ := h.exists_of_mem hq
  rfl

/-- Two lists of the same shared references are sorted alike. -/
lemma sortShared?_congr {rs ts : List SharedReference}
    (h : Enumerates SharedReference.ofPair rs T) (h' : Enumerates SharedReference.ofPair ts T) :
    sortShared? rs = sortShared? ts := by
  refine Value.sortPairs?_congr SharedReference.key_injective (fun r hr => ?_) (h.perm h')
  obtain ⟨x, -, rfl⟩ := h.exists_of_mem hr
  rfl

/-- Two lists of the same references to resources are sorted alike. -/
lemma sortResourceRefs?_congr {rs ts : List ResourceReference}
    (h : Enumerates ResourceReference.ofPair rs U) (h' : Enumerates ResourceReference.ofPair ts U) :
    sortResourceRefs? rs = sortResourceRefs? ts := by
  refine Value.sortPairs?_congr ResourceReference.key_injective (fun r hr => ?_) (h.perm h')
  obtain ⟨x, -, rfl⟩ := h.exists_of_mem hr
  rfl

/-- Two lists of the same texts are sorted alike. -/
lemma sort?_classes_congr {xs ys : List Value} (h : Enumerates .text xs S)
    (h' : Enumerates .text ys S) : Value.sort? xs = Value.sort? ys :=
  Value.sort?_congr (fun _ hv => h.isText hv) (h.perm h')

end Sorted

/-- Each member of a list equals one of another list. -/
lemma Value.within_iff {ys : List Value} : ∀ {xs : List Value},
    within xs ys = true ↔ ∀ v ∈ xs, ∃ w ∈ ys, same v w = true
  | [] => by simp [within]
  | x :: xs => by
      rw [within, Bool.and_eq_true, within_iff, List.any_eq_true, List.forall_mem_cons]

/-- Lists of the same members are equal as collections, if every member equals itself. -/
lemma Enumerates.within_map {α β : Type} {f : β → α} {g : α → Value} {S : Set β} {xs ys : List α}
    (h : Enumerates f xs S) (h' : Enumerates f ys S)
    (hself : ∀ b, Value.same (g (f b)) (g (f b)) = true) :
    (xs.map g).length = (ys.map g).length ∧ Value.within (xs.map g) (ys.map g) = true := by
  have hperm := h.perm h'
  refine ⟨by simp [hperm.length_eq], Value.within_iff.mpr fun v hv => ?_⟩
  refine ⟨v, (hperm.map g).mem_iff.mp hv, ?_⟩
  obtain ⟨x, hx, rfl⟩ := List.mem_map.mp hv
  obtain ⟨b, -, rfl⟩ := h.exists_of_mem hx
  exact hself b

/-- Lists that are equal as collections stand for one set, if equality tells its members apart. -/
lemma Enumerates.eq_of_within {α β : Type} {f : β → α} {g : α → Value} {S T : Set β}
    {xs ys : List α} (h : Enumerates f xs S) (h' : Enumerates f ys T) (hf : f.Injective)
    (hg : ∀ b c, Value.same (g (f b)) (g (f c)) = true → b = c)
    (hlen : xs.length = ys.length) (hw : Value.within (xs.map g) (ys.map g) = true) : S = T := by
  have hsub : xs ⊆ ys := fun x hx => by
    obtain ⟨b, -, rfl⟩ := h.exists_of_mem hx
    obtain ⟨w, hw, hsame⟩ := Value.within_iff.mp hw _ (List.mem_map.mpr ⟨_, hx, rfl⟩)
    obtain ⟨y, hy, rfl⟩ := List.mem_map.mp hw
    obtain ⟨c, -, rfl⟩ := h'.exists_of_mem hy
    exact hg b c hsame ▸ hy
  have hperm : xs.Perm ys := (List.subperm_of_subset h.1 hsub).perm_of_length_le hlen.ge
  ext b
  rw [← h.mem_iff hf, ← h'.mem_iff hf, hperm.mem_iff]

namespace Index

/-- Two indexes agree: they are equal, written alike, and have one content and one fingerprint. -/
structure Agree (i j : Index) : Prop where
  same : i.toValue.same j.toValue = true
  toDict : i.toDict? = j.toDict?
  content : i.contentBytes? = j.contentBytes?
  fingerprint : i.fingerprint? = j.fingerprint?

/-- The parts of an index are those of its first resource. -/
lemma parts_eq {p : ProcessDefinition} {i : Index} {parts : List Part} {frozen : Bool}
    (h : i.resources = p.resources parts frozen) : i.parts = parts := by
  simp [Index.parts, Index.resource?, h, ProcessDefinition.resources]

variable {p : ProcessDefinition} {F : Set Finding} {i j : Index}

/-- Indexes that show the same findings have the same content. -/
lemma Shows.contentText?_eq (hi : i.Shows p F) (hj : j.Shows p F) :
    i.contentText? = j.contentText? := by
  obtain ⟨ps, hps, hparts⟩ := hi.resources
  obtain ⟨qs, hqs, hparts'⟩ := hj.resources
  rw [contentText?, contentText?, hi.processId, hj.processId, hi.processName, hj.processName,
    parts_eq hps, parts_eq hqs, sortParts?_congr hparts hparts',
    sortShared?_congr hi.shared hj.shared, sortResourceRefs?_congr hi.references hj.references]

/-- Indexes that show the same findings are written alike. -/
lemma Shows.toDict?_eq (hi : i.Shows p F) (hj : j.Shows p F) : i.toDict? = j.toDict? := by
  obtain ⟨ps, hps, hparts⟩ := hi.resources
  obtain ⟨qs, hqs, hparts'⟩ := hj.resources
  have hresources : i.resources.mapM Resource.toDict? = j.resources.mapM Resource.toDict? := by
    rw [hps, hqs, ProcessDefinition.resources, ProcessDefinition.resources, List.mapM_cons,
      List.mapM_cons, Resource.toDict?, Resource.toDict?, sortParts?_congr hparts hparts']
  rw [toDict?, toDict?, fingerprint?, fingerprint?, contentBytes?, contentBytes?,
    hi.contentText?_eq hj, hresources, sortShared?_congr hi.shared hj.shared,
    sortResourceRefs?_congr hi.references hj.references, sort?_classes_congr hi.classes hj.classes,
    hi.processId, hj.processId, hi.processName, hj.processName]

/-- Indexes that show the same findings are equal. -/
lemma Shows.same (hid : p.id.isText) (hname : p.name.isText) (hi : i.Shows p F)
    (hj : j.Shows p F) : i.toValue.same j.toValue = true := by
  obtain ⟨s, hs⟩ := Value.isText_iff.mp hid
  obtain ⟨n, hn⟩ := Value.isText_iff.mp hname
  obtain ⟨ps, hps, hparts⟩ := hi.resources
  obtain ⟨qs, hqs, hparts'⟩ := hj.resources
  have h1 := hparts.within_map (g := Part.toValue) hparts' fun n => (Part.same_toValue n n).mpr rfl
  have h2 := hi.shared.within_map (g := SharedReference.toValue) hj.shared fun x =>
    (SharedReference.same_toValue x x).mpr rfl
  have h3 := hi.references.within_map (g := ResourceReference.toValue) hj.references fun x =>
    (ResourceReference.same_toValue x x).mpr rfl
  have h4 := hi.classes.within_map (g := id) hj.classes fun n => by simp
  rw [List.map_id, List.map_id] at h4
  have hresources : Value.sameList (i.resources.map Resource.toValue)
      (j.resources.map Resource.toValue) = true := by
    rw [hps, hqs, ProcessDefinition.resources, ProcessDefinition.resources, hs, hn]
    split <;> simp [Resource.toValue, Value.sameList, Value.same, Value.text?, h1.2,
      (hparts.perm hparts').length_eq, Value.within]
  simp only [toValue, Value.same, hi.processId, hj.processId, hi.processName, hj.processName, hs,
    hn, Value.text?, hresources, h2.1, h2.2, h3.1, h3.2, h4.1, h4.2, BEq.rfl, Bool.and_self]

/-- **Indexes that show the same findings agree.** -/
theorem Shows.agree (hid : p.id.isText) (hname : p.name.isText) (hi : i.Shows p F)
    (hj : j.Shows p F) : i.Agree j where
  same := hi.same hid hname hj
  toDict := hi.toDict?_eq hj
  content := by rw [contentBytes?, contentBytes?, hi.contentText?_eq hj]
  fingerprint := by
    rw [fingerprint?, fingerprint?, contentBytes?, contentBytes?, hi.contentText?_eq hj]

end Index

end Concordance

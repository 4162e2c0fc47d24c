import Mathlib
import Concordance.Proofs.Words
import Concordance.Registry

/-!
When the fingerprint tells two indexes apart.

* `Index.contentBytes?_eq_iff` : the byte streams of two returned indexes are equal exactly if the
  indexes are, where no id and no name holds a zero.
* `Index.Legible.publish_ok` : publishing an index where another one of the same process is compares
  the hashes of their streams.
* `Index.toldApart_iff` : an index is told apart from every other one exactly if it has no reference
  and no zero in its id and its name; `ProcessDefinition.returns_bare` gives the others.
* `Index.fingerprint_separates` : both together. `Index.fingerprint_confuses_sample` : a variable
  that a name hides.
-/

namespace Concordance

/-! ### Bytes -/

/-- The bytes of an array from a place on, put behind those that were read. -/
lemma toList_loop_eq (bs : ByteArray) : ∀ (n i : ℕ) (before : List UInt8), bs.size - i = n →
    ByteArray.toList.loop bs i before = before.reverse ++ bs.data.toList.drop i
  | 0, i, before, h => by
      have hi : ¬i < bs.size := by omega
      have hdrop : bs.data.toList.drop i = [] := List.drop_eq_nil_of_le (by simpa using hi)
      rw [ByteArray.toList.loop, if_neg hi, hdrop, List.append_nil]
  | n + 1, i, before, h => by
      have hi : i < bs.size := by omega
      have hlen : i < bs.data.toList.length := hi
      have hget : bs.get! i = bs.data.toList[i] := by simp [ByteArray.get!, getElem!_pos, hi]
      rw [ByteArray.toList.loop, if_pos hi, toList_loop_eq bs n (i + 1) _ (by omega), hget,
        List.drop_eq_getElem_cons hlen, List.reverse_cons, List.append_assoc]
      rfl

lemma toList_eq_data (bs : ByteArray) : bs.toList = bs.data.toList := by
  rw [ByteArray.toList, toList_loop_eq bs _ 0 [] rfl]
  simp

/-- A text is determined by its bytes. -/
lemma toUTF8_toList_injective : Function.Injective fun s : String => s.toUTF8.toList := by
  intro s t h
  have hbytes : s.toByteArray = t.toByteArray := by
    simp only [String.toUTF8_eq_toByteArray, toList_eq_data] at h
    exact ByteArray.ext (Array.toList_inj.mp h)
  exact String.toByteArray_inj.mp hbytes

namespace Index

section Separation

variable {p q : ProcessDefinition} {i j : Index}

/-! ### Equal content, equal indexes -/

/-- The byte stream of an index. -/
lemma Legible.contentBytes?_eq (h : i.Legible) :
    i.contentBytes? = .ok (String.ofList (closed i.words)).toUTF8.toList := by
  rw [contentBytes?, h.contentText?_eq]
  rfl

/-- Indexes with the same byte stream have the same words, one after another. -/
lemma Legible.closed_eq (hi : i.Legible) (hj : j.Legible) (h : i.contentBytes? = j.contentBytes?) :
    closed i.words = closed j.words := by
  rw [hi.contentBytes?_eq, hj.contentBytes?_eq, Except.ok.injEq] at h
  exact String.ofList_injective (toUTF8_toList_injective h)

/-- An index of a process shows what it shows as one of any process with this id and this name. -/
lemma Shows.of_names {F : Set Finding} (h : j.Shows q F) (hid : q.id = p.id)
    (hname : q.name = p.name) : j.Shows p F where
  processId := h.processId.trans hid
  processName := h.processName.trans hname
  resources := by
    obtain ⟨parts, hres, hparts⟩ := h.resources
    refine ⟨parts, ?_, hparts⟩
    rw [hres, ProcessDefinition.resources, ProcessDefinition.resources, hid, hname]
  shared := h.shared
  references := h.references
  classes := h.classes

/-- A text is determined by how it is displayed. -/
lemma Legible.eq_of_display {v w : Value} (hi : i.Legible) (hj : j.Legible) (hv : v ∈ i.names)
    (hw : w ∈ j.names) (h : v.display.toList = w.display.toList) : v = w := by
  obtain ⟨s, rfl, -⟩ := hi v hv
  obtain ⟨t, rfl, -⟩ := hj w hw
  exact congrArg _ (String.toList_inj.mp h)

lemma Legible.id_isText (h : i.Legible) : i.processId.isText := by
  obtain ⟨s, hs, -⟩ := h i.processId (by simp [names])
  exact Value.isText_iff.mpr ⟨s, hs⟩

lemma Legible.name_isText (h : i.Legible) : i.processName.isText := by
  obtain ⟨s, hs, -⟩ := h i.processName (by simp [names])
  exact Value.isText_iff.mpr ⟨s, hs⟩

/-- A legible index that is returned shows what it tells. -/
lemma Legible.shows (h : i.Legible) (hi : p.Returns i) : i.Shows p i.findings :=
  (hi.tidy h.id_isText h.name_isText).shows h

/-- Indexes that are returned agree if they tell the same and carry the same names. -/
lemma agree_of_findings (hi : p.Returns i) (hj : q.Returns j) (hi' : i.Legible) (hj' : j.Legible)
    (hid : i.processId = j.processId) (hname : i.processName = j.processName)
    (h : i.findings = j.findings) : i.Agree j := by
  rw [hi.names.1, hj.names.1] at hid
  rw [hi.names.2, hj.names.2] at hname
  refine (hi'.shows hi).agree (hi.names.1 ▸ hi'.id_isText) (hi.names.2 ▸ hi'.name_isText) ?_
  exact h ▸ (hj'.shows hj).of_names hid.symm hname.symm

/-- Indexes that are returned and have the same words are equal. -/
lemma same_of_words (hi : p.Returns i) (hj : q.Returns j) (hi' : i.Legible) (hj' : j.Legible)
    (h : i.words = j.words) : i.toValue.same j.toValue = true := by
  obtain ⟨hid, hrest⟩ := List.cons.inj h
  obtain ⟨hname, hrefs⟩ := List.cons.inj hrest
  refine (agree_of_findings hi hj hi' hj' ?_ ?_ (hi'.findings_eq hj' hrefs)).same
  · exact hi'.eq_of_display hj' (by simp [names]) (by simp [names]) hid
  · exact hi'.eq_of_display hj' (by simp [names]) (by simp [names]) hname

/-- Indexes that are returned and equal carry the same names and tell the same. -/
lemma findings_of_same (hi : p.Returns i) (hj : q.Returns j) (hi' : i.Legible) (hj' : j.Legible)
    (h : i.toValue.same j.toValue = true) :
    (i.processId = j.processId ∧ i.processName = j.processName) ∧ i.findings = j.findings := by
  have hiShows := hi'.shows hi
  have hjShows := hj'.shows hj
  obtain ⟨s, hs⟩ := Value.isText_iff.mp hi'.id_isText
  obtain ⟨n, hn⟩ := Value.isText_iff.mp hi'.name_isText
  obtain ⟨ps, hps, hparts⟩ := hiShows.resources
  obtain ⟨qs, hqs, hparts'⟩ := hjShows.resources
  simp only [toValue, Value.same, Bool.and_eq_true, beq_iff_eq, hs, hn, Value.text?_eq_some, hps,
    hqs, ProcessDefinition.resources, List.map_cons, Value.sameList, Resource.toValue,
    List.length_map] at h
  obtain ⟨⟨⟨⟨⟨⟨⟨⟨hid, hname⟩, ⟨⟨-, hplen⟩, hpw⟩, -⟩, hslen⟩, hsw⟩, hrlen⟩, hrw⟩, -⟩, -⟩ := h
  refine ⟨⟨hs.trans hid.symm, hn.trans hname.symm⟩, ?_⟩
  have hpartsEq := hparts.eq_of_within hparts' (g := Part.toValue) Part.ofName_injective
    (fun m n => (Part.same_toValue m n).mp) hplen hpw
  have hsharedEq := hiShows.shared.eq_of_within hjShows.shared (g := SharedReference.toValue)
    SharedReference.ofPair_injective (fun x y => (SharedReference.same_toValue x y).mp) hslen hsw
  have hrefsEq := hiShows.references.eq_of_within hjShows.references
    (g := ResourceReference.toValue) ResourceReference.ofPair_injective
    (fun x y => (ResourceReference.same_toValue x y).mp) hrlen hrw
  exact findings_congr (Set.ext_iff.mp hpartsEq) (Set.ext_iff.mp hsharedEq)
    (Set.ext_iff.mp hrefsEq)

/-- **Without zeros the byte stream tells indexes apart**: it is the same exactly for equal ones. -/
theorem contentBytes?_eq_iff (hi : p.Returns i) (hj : q.Returns j) (hi' : i.Legible)
    (hj' : j.Legible) (hiZero : i.ZeroFree) (hjZero : j.ZeroFree) :
    i.contentBytes? = j.contentBytes? ↔ i.toValue.same j.toValue = true := by
  constructor
  · exact fun h => same_of_words hi hj hi' hj'
      (closed_injective hiZero.words hjZero.words (hi'.closed_eq hj' h))
  · intro h
    obtain ⟨⟨hid, hname⟩, hF⟩ := findings_of_same hi hj hi' hj' h
    exact (agree_of_findings hi hj hi' hj' hid hname hF).content

/-! ### Publication -/

/-- Publishing an index where another one of the same process is compares their hashes. -/
lemma Legible.publish_ok {r : Registry} (hj : j.Legible)
    (hr : r.get? j.processId = some i) {before after : List UInt8}
    (hbefore : i.contentBytes? = .ok before) (hafter : j.contentBytes? = .ok after) :
    ∃ r' changed, r.publish j = .ok (r', changed) ∧
      (changed = false ↔ XXH64.hexDigest before = XXH64.hexDigest after) := by
  obtain ⟨s, hs⟩ := Value.isText_iff.mp hj.id_isText
  have hhash : j.processId.hashable = true := by rw [hs, Value.hashable_text]
  have hold : i.fingerprint? = .ok (XXH64.hexDigest before) := by
    rw [fingerprint?, hbefore]
    rfl
  have hnew : j.fingerprint? = .ok (XXH64.hexDigest after) := by
    rw [fingerprint?, hafter]
    rfl
  simp only [Registry.publish, hhash, hr, hold, hnew, Bool.not_true, Bool.false_eq_true, if_false,
    bind, Except.bind, pure, Except.pure]
  by_cases hdigest : XXH64.hexDigest before = XXH64.hexDigest after
  · exact ⟨r, false, by rw [if_pos hdigest], by simp [hdigest]⟩
  · exact ⟨r.insert j, true, by rw [if_neg hdigest], by simp [hdigest]⟩

/-! ### Indexes that are told apart from all others -/

/-- Every returned index with the same byte stream is equal to the index. -/
def ToldApart (i : Index) : Prop :=
  ∀ (q : ProcessDefinition) (k : Index), q.Returns k → k.Legible →
    k.contentBytes? = i.contentBytes? → i.toValue.same k.toValue = true

/-- No part and no reference is in the index. -/
def Bare (i : Index) : Prop := i.parts = [] ∧ i.shared = [] ∧ i.resourceRefs = []

lemma referenceWords_eq_nil : i.referenceWords = [] ↔ i.Bare := by
  have hlist : ∀ {α : Type} (letter : String) (key : α → String × Value) (xs : List α),
      listWords letter key xs = [] ↔ xs = [] := fun letter key xs => by
    rw [listWords, List.map_eq_nil_iff]
    constructor
    · intro h
      exact (h ▸ Value.orderedBy_perm (fun x => Value.pairCodes (key x)) xs).nil_eq.symm
    · rintro rfl
      rw [Value.orderedBy, List.mergeSort_nil]
  rw [referenceWords, List.append_eq_nil_iff, List.append_eq_nil_iff, hlist, hlist, hlist, Bare]

/-- For every stream of two words there is an index without references that has it. -/
lemma exists_bare {u v : List Char} (hu : ∀ c ∈ u, Text.isHalf c = false)
    (hv : ∀ c ∈ v, Text.isHalf c = false) :
    ∃ (q : ProcessDefinition) (k : Index), q.Returns k ∧ k.Legible ∧ k.words = [u, v] := by
  obtain ⟨k, hk, hshows⟩ := ProcessDefinition.returns_bare (.ofList u) (.ofList v)
  obtain ⟨parts, hres, hparts⟩ := hshows.resources
  have hbare : k.Bare := ⟨(parts_eq hres).trans (hparts.congr (by simp)).eq_nil,
    (hshows.shared.congr (by simp)).eq_nil, (hshows.references.congr (by simp)).eq_nil⟩
  have hid : k.processId = .text (.ofList u) := hshows.processId
  have hname : k.processName = .text (.ofList v) := hshows.processName
  refine ⟨_, k, hk, ?_, ?_⟩
  · have hnames : k.names = [.text (.ofList u), .text (.ofList v)] := by
      simp [names, hid, hname, hbare.1, hbare.2.1, hbare.2.2]
    rw [Legible, hnames]
    simp only [List.forall_mem_cons, Value.text.injEq, exists_eq_left', Text.isEncodable_iff,
      String.toList_ofList]
    exact ⟨hu, hv, fun _ h => absurd h List.not_mem_nil⟩
  · simp [words, referenceWords_eq_nil.mpr hbare, hid, hname]

/-- An index that is told apart carries the names of every index without references that has the
same stream. -/
lemma ToldApart.names_eq (h : i.ToldApart) (hi : p.Returns i) (hi' : i.Legible) {u v : List Char}
    (huv : closed i.words = closed [u, v]) :
    i.processId.display.toList = u ∧ i.processName.display.toList = v := by
  have hchars : ∀ c ∈ closed i.words, Text.isHalf c = false := fun c hc => by
    obtain ⟨w, hw, hcw⟩ := List.mem_flatMap.mp hc
    rcases List.mem_append.mp hcw with hcw | hcw
    · exact hi'.isHalf_words w hw c hcw
    · exact List.mem_singleton.mp hcw ▸ (by decide)
  rw [huv, closed_cons, closed_cons] at hchars
  obtain ⟨q, k, hk, hk', hwords⟩ := exists_bare (u := u) (v := v)
    (fun c hc => hchars c (by simp [hc])) fun c hc => hchars c (by simp [hc])
  have hbytes : k.contentBytes? = i.contentBytes? := by
    rw [hk'.contentBytes?_eq, hi'.contentBytes?_eq, huv, hwords]
  obtain ⟨⟨hid, hname⟩, -⟩ := findings_of_same hi hk hi' hk' (h q k hk hk' hbytes)
  rw [Index.words, List.cons.injEq, List.cons.injEq] at hwords
  exact ⟨hid ▸ hwords.1, hname ▸ hwords.2.1⟩

/-- An index that is told apart has no references: the name of another one could take them in. -/
lemma ToldApart.bare (h : i.ToldApart) (hi : p.Returns i) (hi' : i.Legible) : i.Bare := by
  obtain ⟨v, hv⟩ := exists_closed_eq i.processName.display.toList i.referenceWords
  have hstream : closed i.words = closed [i.processId.display.toList, v] := by
    rw [words, closed_cons, hv, closed_cons, closed_cons]
    rfl
  obtain ⟨-, hname⟩ := h.names_eq hi hi' hstream
  rw [closed_cons, hname] at hv
  have hrest : closed i.referenceWords = [] := (List.cons.inj (List.append_cancel_left hv)).2
  rw [← referenceWords_eq_nil]
  cases hwords : i.referenceWords with
  | nil => rfl
  | cons w ws =>
      rw [hwords, closed_cons] at hrest
      simp at hrest

/-- Nor has it a zero in its id: what stands behind it could move into the name. -/
lemma ToldApart.zero_not_mem_id (h : i.ToldApart) (hi : p.Returns i) (hi' : i.Legible) :
    zero ∉ i.processId.display.toList := by
  intro hzero
  obtain ⟨u, v, huv⟩ := List.append_of_mem hzero
  have hstream : closed i.words = closed [u, v ++ zero :: i.processName.display.toList] := by
    rw [words, referenceWords_eq_nil.mpr (h.bare hi hi'), huv]
    simp [closed_cons]
  obtain ⟨hid, -⟩ := h.names_eq hi hi' hstream
  rw [huv] at hid
  simp at hid

/-- Nor in its name: what stands before it could move into the id. -/
lemma ToldApart.zero_not_mem_name (h : i.ToldApart) (hi : p.Returns i) (hi' : i.Legible) :
    zero ∉ i.processName.display.toList := by
  intro hzero
  obtain ⟨u, v, huv⟩ := List.append_of_mem hzero
  have hstream : closed i.words = closed [i.processId.display.toList ++ zero :: u, v] := by
    rw [words, referenceWords_eq_nil.mpr (h.bare hi hi'), huv]
    simp [closed_cons]
  obtain ⟨hid, -⟩ := h.names_eq hi hi' hstream
  simp at hid

/-- **An index is told apart from every other one** exactly if it has no references and no zero in
its id and its name. -/
theorem toldApart_iff (hi : p.Returns i) (hi' : i.Legible) : i.ToldApart ↔
    i.Bare ∧ zero ∉ i.processId.display.toList ∧ zero ∉ i.processName.display.toList := by
  constructor
  · intro h
    exact ⟨h.bare hi hi', h.zero_not_mem_id hi hi', h.zero_not_mem_name hi hi'⟩
  · rintro ⟨hbare, hid, hname⟩ q k hk hk' hbytes
    have hwords : i.words = [i.processId.display.toList, i.processName.display.toList] := by
      rw [words, referenceWords_eq_nil.mpr hbare]
    have hzero : ∀ w ∈ i.words, zero ∉ w := by simp [hwords, hid, hname]
    have hclosed := hi'.closed_eq hk' hbytes.symm
    have hlen : i.words.length ≤ k.words.length := by
      rw [hwords]
      simp [words]
    exact same_of_words hi hk hi' hk'
      (closed_injective hzero (closed_without hzero hlen hclosed) hclosed)

/-- **What the fingerprint tells.** Of two returned indexes, without zeros in their ids and names,
the byte streams are equal exactly if the indexes are; so publishing one where the other is stored
changes nothing only if they are equal, or the hash of two different streams collides. And an index
is told apart from every other one exactly if it has no references and no zero in its id and its
name. -/
theorem fingerprint_separates (hi : p.Returns i) (hj : q.Returns j) (hi' : i.Legible)
    (hj' : j.Legible) :
    (i.ZeroFree → j.ZeroFree → ∃ before after, i.contentBytes? = .ok before ∧
      j.contentBytes? = .ok after ∧ (before = after ↔ i.toValue.same j.toValue = true) ∧
      ∀ r : Registry, r.get? j.processId = some i → ∃ r' changed,
        r.publish j = .ok (r', changed) ∧ (i.toValue.same j.toValue = true → changed = false) ∧
        (changed = false → i.toValue.same j.toValue = true ∨
          before ≠ after ∧ XXH64.hexDigest before = XXH64.hexDigest after)) ∧
    (i.ToldApart ↔
      i.Bare ∧ zero ∉ i.processId.display.toList ∧ zero ∉ i.processName.display.toList) := by
  refine ⟨fun hiZero hjZero => ?_, toldApart_iff hi hi'⟩
  have hiff := contentBytes?_eq_iff hi hj hi' hj' hiZero hjZero
  have hbefore := hi'.contentBytes?_eq
  have hafter := hj'.contentBytes?_eq
  rw [hbefore, hafter, Except.ok.injEq] at hiff
  refine ⟨_, _, hbefore, hafter, hiff, fun r hr => ?_⟩
  obtain ⟨r', changed, hpublish, hchanged⟩ := hj'.publish_ok hr hbefore hafter
  refine ⟨r', changed, hpublish, fun hsame => ?_, fun hno => ?_⟩
  · exact hchanged.mpr (congrArg _ (hiff.mpr hsame))
  · by_cases hsame : i.toValue.same j.toValue = true
    · exact .inl hsame
    · exact .inr ⟨fun h => hsame (hiff.mp h), hchanged.mp hno⟩

end Separation

/-! ### One stream of two indexes -/

/-- An index of parts alone. -/
def ofParts (x y : String) (parts : List Part) : Index where
  processId := .text x
  processName := .text y
  resources := (ProcessDefinition.bare x y).resources parts true
  shared := []
  resourceRefs := []
  classes := []

lemma names_ofParts (x y : String) (parts : List Part) : (ofParts x y parts).names =
    .text x :: .text y :: parts.map (·.name) := by
  have hparts : (ofParts x y parts).parts = parts := parts_eq (p := .bare x y) rfl
  rw [names, hparts]
  simp [ofParts]

lemma legible_ofParts {x y : String} (hx : Text.isEncodable x) (hy : Text.isEncodable y) :
    (ofParts x y []).Legible := by
  rw [Legible, names_ofParts]
  simpa using And.intro hx hy

/-- The index of a process with one variable. -/
def sample : Index := ofParts "P" "n" [.ofName "v"]

/-- The index of the same process without the variable, under a name that spells it. -/
def sampleTwin : Index := ofParts "P" "n\x00p:variable:v" []

lemma returns_sample : (ProcessDefinition.bare "P" "n").Returns sample :=
  ⟨{}, {}, .null, [.processAdded, .observed (.metadata Build.variableKey
    (.var (.text "v") (.text "") (.dict []))), .complete], by cbv⟩

lemma returns_sampleTwin : (ProcessDefinition.bare "P" "n\x00p:variable:v").Returns sampleTwin :=
  ⟨{}, {}, .null, [.processAdded, .complete], by cbv⟩

lemma legible_sample : sample.Legible := by
  have henc : Text.isEncodable "P" ∧ Text.isEncodable "n" ∧ Text.isEncodable "v" := by decide
  rw [Legible, sample, names_ofParts]
  simpa [Part.ofName] using henc

lemma legible_sampleTwin : sampleTwin.Legible := by
  have henc : Text.isEncodable "P" ∧ Text.isEncodable "n\x00p:variable:v" := by decide
  rw [Legible, sampleTwin, names_ofParts]
  simpa using henc

theorem fingerprint_separates_sample :
    (ProcessDefinition.bare "P" "n").Returns sample ∧
      (ProcessDefinition.bare "P" "").Returns (ofParts "P" "" []) ∧ sample.Legible ∧
      (ofParts "P" "" []).Legible ∧ sample.ZeroFree ∧ (ofParts "P" "" []).ZeroFree ∧
      (∃ before after, sample.contentBytes? = .ok before ∧
        (ofParts "P" "" []).contentBytes? = .ok after ∧ before ≠ after) ∧
      ¬sample.ToldApart ∧ (ofParts "P" "" []).ToldApart := by
  have hj : (ProcessDefinition.bare "P" "").Returns (ofParts "P" "" []) :=
    ⟨{}, {}, .null, [.processAdded, .complete], by cbv⟩
  have hj' : (ofParts "P" "" []).Legible := by
    have henc : Text.isEncodable "P" ∧ Text.isEncodable "" := by decide
    rw [Legible, names_ofParts]
    simpa using henc
  have hiZero : sample.ZeroFree := by
    rw [ZeroFree, sample, names_ofParts]
    simp [Part.ofName]
    decide
  have hjZero : (ofParts "P" "" []).ZeroFree := by
    rw [ZeroFree, names_ofParts]
    simp
    decide
  have hdiffers : sample.toValue.same (ofParts "P" "" []).toValue = false := by cbv
  obtain ⟨hpair, hall⟩ := fingerprint_separates returns_sample hj legible_sample hj'
  obtain ⟨before, after, hbefore, hafter, hiff, -⟩ := hpair hiZero hjZero
  refine ⟨returns_sample, hj, legible_sample, hj', hiZero, hjZero,
    ⟨before, after, hbefore, hafter, fun h => ?_⟩, ?_, ?_⟩
  · rw [hiff, hdiffers] at h
    cases h
  · rw [hall]
    rintro ⟨⟨hparts, -⟩, -⟩
    cases hparts
  · exact (fingerprint_separates hj hj hj' hj').2.mpr ⟨⟨rfl, rfl, rfl⟩, by decide, by decide⟩

/-- **A zero in a name can hide a variable**: two different indexes of one process have one stream,
and where the first is stored publishing the second changes nothing. -/
theorem fingerprint_confuses_sample :
    (ProcessDefinition.bare "P" "n").Returns sample ∧
      (ProcessDefinition.bare "P" "n\x00p:variable:v").Returns sampleTwin ∧
      sample.Legible ∧ sampleTwin.Legible ∧ sample.contentBytes? = sampleTwin.contentBytes? ∧
      sample.toValue.same sampleTwin.toValue = false ∧
      ∃ r : Registry, r.get? (.text "P") = some sample ∧
        ∃ r', r.publish sampleTwin = .ok (r', false) := by
  have hcontent : sample.contentBytes? = sampleTwin.contentBytes? := by
    have hwords : closed sample.words = closed sampleTwin.words := by cbv
    rw [legible_sample.contentBytes?_eq, legible_sampleTwin.contentBytes?_eq, hwords]
  refine ⟨returns_sample, returns_sampleTwin, legible_sample, legible_sampleTwin, hcontent, by cbv,
    ?_⟩
  have hget : (({} : Registry).insert sample).get? (.text "P") = some sample := by cbv
  have hbytes := legible_sample.contentBytes?_eq
  obtain ⟨r', changed, hpublish, hchanged⟩ :=
    legible_sampleTwin.publish_ok hget hbytes (hcontent ▸ hbytes)
  exact ⟨_, hget, r', hchanged.mpr rfl ▸ hpublish⟩

end Index

end Concordance

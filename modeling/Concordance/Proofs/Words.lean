import Concordance.Proofs.Agreement
import Concordance.Proofs.Calls

/-!
The byte stream of an index as words, each closed by a zero.

* `closed ws` : the words of a list one after another, each closed. `closed_injective` : words
  without zeros can be read back. `closed_without` : the stream of such words is not that of as many
  words, or more, of which one holds a zero.
* `keyWord` : a reference as a word: the letter of its list, its kind and its name.
  `keyWord_injective` : it can be read back, since no kind holds a colon.
* `Index.words` : the words of an index. `Index.Legible.contentBytes?_eq` : its byte stream is that
  of these words. `Index.Legible.findings_eq` : the words of references determine them.
-/

namespace Concordance

/-! ### Closed words -/

/-- The character that closes a word. -/
def zero : Char := '\x00'

/-- Words one after another, each of them closed. -/
def closed (ws : List (List Char)) : List Char := ws.flatMap (· ++ [zero])

lemma closed_cons (w : List Char) (ws : List (List Char)) :
    closed (w :: ws) = w ++ zero :: closed ws := by
  rw [closed, List.flatMap_cons, List.append_assoc]
  rfl

/-- What stands before the first separator and after it is determined by the whole. -/
lemma append_cons_inj {α : Type} {a : α} : ∀ {xs ys rs ss : List α}, a ∉ xs → a ∉ ys →
    xs ++ a :: rs = ys ++ a :: ss → xs = ys ∧ rs = ss
  | [], [], _, _, _, _, h => ⟨rfl, (List.cons.inj h).2⟩
  | [], y :: ys, _, _, _, hy, h => absurd (List.mem_cons.mpr (.inl (List.cons.inj h).1)) hy
  | x :: xs, [], _, _, hx, _, h => absurd (List.mem_cons.mpr (.inl (List.cons.inj h).1.symm)) hx
  | x :: xs, y :: ys, _, _, hx, hy, h => by
      obtain ⟨rfl, htail⟩ := List.cons.inj h
      obtain ⟨rfl, hrest⟩ := append_cons_inj (List.not_mem_of_not_mem_cons hx)
        (List.not_mem_of_not_mem_cons hy) htail
      exact ⟨rfl, hrest⟩

/-- **Words without zeros can be read back.** -/
theorem closed_injective : ∀ {ws vs : List (List Char)}, (∀ w ∈ ws, zero ∉ w) →
    (∀ v ∈ vs, zero ∉ v) → closed ws = closed vs → ws = vs
  | [], [], _, _, _ => rfl
  | [], v :: vs, _, _, h => by simp [closed] at h
  | w :: ws, [], _, _, h => by simp [closed] at h
  | w :: ws, v :: vs, hw, hv, h => by
      rw [closed_cons, closed_cons] at h
      obtain ⟨rfl, hrest⟩ := append_cons_inj (hw w (by simp)) (hv v (by simp)) h
      have hw' : ∀ u ∈ ws, zero ∉ u := fun u hu => hw u (List.mem_cons_of_mem _ hu)
      have hv' : ∀ u ∈ vs, zero ∉ u := fun u hu => hv u (List.mem_cons_of_mem _ hu)
      rw [closed_injective hw' hv' hrest]

/-- Every word brings one zero, besides those that it holds. -/
lemma count_closed (ws : List (List Char)) :
    (closed ws).count zero = ws.length + (ws.map (List.count zero)).sum := by
  induction ws with
  | nil => rfl
  | cons w ws ih =>
      rw [closed_cons, List.count_append, List.count_cons_self, ih, List.map_cons, List.sum_cons,
        List.length_cons]
      omega

/-- The stream of words without zeros is not that of as many words with one, or of more words. -/
lemma closed_without {ws vs : List (List Char)} (hw : ∀ w ∈ ws, zero ∉ w)
    (hlen : ws.length ≤ vs.length) (h : closed ws = closed vs) : ∀ v ∈ vs, zero ∉ v := by
  have hcount := congrArg (List.count zero) h
  have hws : (ws.map (List.count zero)).sum = 0 :=
    List.sum_eq_zero fun n hn => by
      obtain ⟨w, hwm, rfl⟩ := List.mem_map.mp hn
      exact List.count_eq_zero.mpr (hw w hwm)
  rw [count_closed, count_closed, hws] at hcount
  intro v hv
  have hle : v.count zero ≤ (vs.map (List.count zero)).sum :=
    List.le_sum_of_mem (List.mem_map.mpr ⟨v, hv, rfl⟩)
  exact List.count_eq_zero.mp (by omega)

/-- All but the last zero of a stream. -/
lemma exists_closed_eq (w : List Char) (ws : List (List Char)) :
    ∃ v, closed (w :: ws) = v ++ [zero] := by
  induction ws generalizing w with
  | nil => exact ⟨w, by rw [closed_cons]; rfl⟩
  | cons x xs ih =>
      obtain ⟨v, hv⟩ := ih x
      exact ⟨w ++ zero :: v, by rw [closed_cons, hv, List.append_assoc]; rfl⟩

/-! ### References as words -/

/-- A reference as a word: the letter of its list, its kind, and its name. -/
def keyWord (letter : String) (key : String × Value) : List Char :=
  letter.toList ++ ':' :: (key.1.toList ++ ':' :: key.2.display.toList)

/-- A word tells kind and name, if no kind holds a colon. -/
lemma keyWord_injective {letter : String} {a b : String × Value} (ha : ':' ∉ a.1.toList)
    (hb : ':' ∉ b.1.toList) (h : keyWord letter a = keyWord letter b) :
    a.1 = b.1 ∧ a.2.display = b.2.display := by
  have hrest := (List.cons.inj (List.append_cancel_left h)).2
  obtain ⟨hkind, hname⟩ := append_cons_inj ha hb hrest
  exact ⟨String.toList_inj.mp hkind, String.toList_inj.mp hname⟩

/-- A character that neither separates nor closes, and can be encoded. -/
def isPlain (c : Char) : Bool := c != ':' && c != zero && !Text.isHalf c

lemma isPlain_iff {c : Char} : isPlain c = true ↔ c ≠ ':' ∧ c ≠ zero ∧ Text.isHalf c = false := by
  simp [isPlain, and_assoc]

lemma PartType.label_plain (t : PartType) :
    ∀ c ∈ t.label.toList, c ≠ ':' ∧ c ≠ zero ∧ Text.isHalf c = false := by
  have h : t.label.toList.all isPlain = true := by cases t <;> decide
  exact fun c hc => isPlain_iff.mp (List.all_eq_true.mp h c hc)

lemma ResourceType.label_plain (t : ResourceType) :
    ∀ c ∈ t.label.toList, c ≠ ':' ∧ c ≠ zero ∧ Text.isHalf c = false := by
  have h : t.label.toList.all isPlain = true := by cases t <;> decide
  exact fun c hc => isPlain_iff.mp (List.all_eq_true.mp h c hc)

lemma Text.isEncodable_iff {s : String} :
    isEncodable s = true ↔ ∀ c ∈ s.toList, isHalf c = false := by
  simp [isEncodable]

lemma Text.isEncodable_append (s t : String) :
    isEncodable (s ++ t) = (isEncodable s && isEncodable t) := by
  simp [isEncodable, String.toList_append, List.any_append, Bool.not_or]

/-- A list of which every member is accepted. -/
lemma mapM_eq_ok {α β : Type} {f : α → Answer β} {g : α → β} : ∀ {xs : List α},
    (∀ x ∈ xs, f x = .ok (g x)) → xs.mapM f = .ok (xs.map g)
  | [], _ => rfl
  | x :: xs, h => by
      rw [List.mapM_cons, h x (by simp), mapM_eq_ok fun y hy => h y (by simp [hy])]
      rfl

namespace Index

/-! ### The words of an index -/

section Listed

variable {α : Type} {key : α → String × Value} {letter : String} {xs : List α}

/-- The references of one list as words, in their order. -/
def listWords (letter : String) (key : α → String × Value) (xs : List α) : List (List Char) :=
  (Value.orderedBy (fun x => Value.pairCodes (key x)) xs).map fun x => keyWord letter (key x)

lemma mem_listWords {w : List Char} :
    w ∈ listWords letter key xs ↔ ∃ x ∈ xs, keyWord letter (key x) = w := by
  simp only [listWords, List.mem_map, (Value.orderedBy_perm _ xs).mem_iff]

/-- A reference whose name is a text that can be encoded. -/
lemma referenceText?_eq {a : String × Value} {s : String} (hletter : Text.isEncodable letter)
    (hkind : Text.isEncodable a.1) (hs : a.2 = .text s) (hname : Text.isEncodable s) :
    referenceText? letter a = .ok (String.ofList (keyWord letter a ++ [zero])) := by
  have hcolon : Text.isEncodable ":" = true := by decide
  have hzero : Text.isEncodable "\x00" = true := by decide
  have htext : letter ++ ":" ++ a.1 ++ ":" ++ s ++ "\x00" =
      String.ofList (keyWord letter a ++ [zero]) := by
    rw [← String.toList_inj]
    simp [keyWord, hs, zero]
  have hall : Text.isEncodable (letter ++ ":" ++ a.1 ++ ":" ++ s ++ "\x00") = true := by
    simp only [Text.isEncodable_append, hletter, hkind, hname, hcolon, hzero, Bool.and_self]
  rw [referenceText?, hs, Value.display?_text]
  change encodable? (letter ++ ":" ++ a.1 ++ ":" ++ s ++ "\x00") = _
  rw [encodable?, if_pos hall, htext]

/-- A list of references whose names are such texts. -/
lemma listTexts_eq (letter : String) (key : α → String × Value)
    (hletter : Text.isEncodable letter) (hkind : ∀ x, Text.isEncodable (key x).1)
    (hxs : ∀ x ∈ xs, ∃ s, (key x).2 = .text s ∧ Text.isEncodable s) :
    (Value.sortPairs? key xs >>= fun ys => ys.mapM fun x => referenceText? letter (key x)) =
      .ok ((listWords letter key xs).map fun w => String.ofList (w ++ [zero])) := by
  have htexts : ∀ x ∈ xs, (key x).2.isText := fun x hx => by
    obtain ⟨s, hs, -⟩ := hxs x hx
    exact Value.isText_iff.mpr ⟨s, hs⟩
  rw [Value.sortPairs?_eq htexts, listWords, List.map_map]
  refine mapM_eq_ok fun x hx => ?_
  obtain ⟨s, hs, hname⟩ := hxs x ((Value.orderedBy_perm _ xs).mem_iff.mp hx)
  exact referenceText?_eq hletter (hkind x) hs hname

end Listed

/-- The references of an index as words: parts, shared references, references to resources. -/
def referenceWords (i : Index) : List (List Char) :=
  listWords "p" Part.key i.parts ++ (listWords "s" SharedReference.key i.shared ++
    listWords "r" ResourceReference.key i.resourceRefs)

/-- An index as words: the id and the name of the process, and its references. -/
def words (i : Index) : List (List Char) :=
  i.processId.display.toList :: i.processName.display.toList :: i.referenceWords

/-- The id, the name, and the names of all references. -/
def names (i : Index) : List Value :=
  i.processId :: i.processName :: (i.parts.map (·.name) ++ (i.shared.map (·.name) ++
    i.resourceRefs.map (·.name)))

/-- The id and all names are texts that can be encoded. -/
def Legible (i : Index) : Prop := ∀ v ∈ i.names, ∃ s, v = .text s ∧ Text.isEncodable s

/-- Neither the id nor a name holds a zero. -/
def ZeroFree (i : Index) : Prop := ∀ v ∈ i.names, zero ∉ v.display.toList

section Legible

variable {i j : Index}

lemma Legible.part (h : i.Legible) {q : Part} (hq : q ∈ i.parts) :
    ∃ s, q.name = .text s ∧ Text.isEncodable s := h q.name (by simp [names]; grind)

lemma Legible.shared (h : i.Legible) {r : SharedReference} (hr : r ∈ i.shared) :
    ∃ s, r.name = .text s ∧ Text.isEncodable s := h r.name (by simp [names]; grind)

lemma Legible.reference (h : i.Legible) {r : ResourceReference} (hr : r ∈ i.resourceRefs) :
    ∃ s, r.name = .text s ∧ Text.isEncodable s := h r.name (by simp [names]; grind)

/-- **The content of an index** is its words, each of them closed. -/
theorem Legible.contentText?_eq (h : i.Legible) :
    i.contentText? = .ok (String.ofList (closed i.words)) := by
  obtain ⟨s, hs, hid⟩ := h i.processId (by simp [names])
  obtain ⟨n, hn, hname⟩ := h i.processName (by simp [names])
  have hzero : Text.isEncodable "\x00" = true := by decide
  have hparts := listTexts_eq "p" Part.key (by decide)
    (fun q => Text.isEncodable_iff.mpr fun c hc => (q.type.label_plain c hc).2.2)
    fun q hq => h.part hq
  have hshared := listTexts_eq "s" SharedReference.key (by decide)
    (fun r => Text.isEncodable_iff.mpr fun c hc => (r.type.label_plain c hc).2.2)
    fun r hr => h.shared hr
  have hrefs := listTexts_eq "r" ResourceReference.key (by decide)
    (fun r => Text.isEncodable_iff.mpr fun c hc => (r.type.label_plain c hc).2.2)
    fun r hr => h.reference hr
  rw [contentText?]
  simp only [← bind_assoc, sortParts?, sortShared?, sortResourceRefs?, hparts, hshared, hrefs]
  simp only [hs, hn, Value.display?_text, bind, Except.bind, encodable?, Text.isEncodable_append,
    hid, hname, hzero, Bool.and_self, if_true, pure, Except.pure, Except.ok.injEq]
  rw [← String.toList_inj]
  simp [words, referenceWords, closed, hs, hn, zero, String.toList_join, List.flatMap_map]

/-- What holds of the characters of all names, and of those that are written between them, holds of
the characters of all words. -/
lemma forall_mem_words {P : Char → Prop} (hcolon : P ':') (hletters : P 'p' ∧ P 's' ∧ P 'r')
    (hkind : ∀ t : PartType, ∀ c ∈ t.label.toList, P c)
    (hkind' : ∀ t : ResourceType, ∀ c ∈ t.label.toList, P c)
    (hnames : ∀ v ∈ i.names, ∀ c ∈ v.display.toList, P c) : ∀ w ∈ i.words, ∀ c ∈ w, P c := by
  have hlist : ∀ {α : Type} (key : α → String × Value) (m : Char) (xs : List α), P m →
      (∀ x, ∀ c ∈ (key x).1.toList, P c) → (∀ x ∈ xs, (key x).2 ∈ i.names) →
      ∀ w ∈ listWords (String.singleton m) key xs, ∀ c ∈ w, P c := by
    intro α key m xs hm hk hxs w hw
    obtain ⟨x, hx, rfl⟩ := mem_listWords.mp hw
    have hmark : ∀ c ∈ [m], P c := by simpa using hm
    have hname : ∀ c ∈ ':' :: (key x).2.display.toList, P c :=
      List.forall_mem_cons.mpr ⟨hcolon, hnames _ (hxs x hx)⟩
    rw [keyWord, String.toList_singleton, List.forall_mem_append]
    exact ⟨hmark, List.forall_mem_cons.mpr ⟨hcolon, List.forall_mem_append.mpr ⟨hk x, hname⟩⟩⟩
  have hparts := hlist Part.key 'p' i.parts hletters.1 (fun q => hkind q.type)
    fun q hq => by simp only [names, Part.key, List.mem_cons, List.mem_append, List.mem_map]; grind
  have hshared := hlist SharedReference.key 's' i.shared hletters.2.1
    (fun r => hkind r.type) fun r hr => by
      simp only [names, SharedReference.key, List.mem_cons, List.mem_append, List.mem_map]; grind
  have hrefs := hlist ResourceReference.key 'r' i.resourceRefs hletters.2.2
    (fun r => hkind' r.type) fun r hr => by
      simp only [names, ResourceReference.key, List.mem_cons, List.mem_append, List.mem_map]; grind
  simp only [words, referenceWords, List.forall_mem_cons, List.forall_mem_append]
  exact ⟨hnames _ (by simp [names]), hnames _ (by simp [names]), hparts, hshared, hrefs⟩

/-- No word of an index holds a zero if no name does. -/
lemma ZeroFree.words (h : i.ZeroFree) : ∀ w ∈ i.words, zero ∉ w := fun w hw hzero =>
  forall_mem_words (P := (· ≠ zero)) (by decide) (by decide)
    (fun t c hc => (t.label_plain c hc).2.1) (fun t c hc => (t.label_plain c hc).2.1)
    (fun v hv _ hc hcz => h v hv (hcz ▸ hc)) w hw zero hzero rfl

/-- The words of a legible index can be encoded. -/
lemma Legible.isHalf_words (h : i.Legible) : ∀ w ∈ i.words, ∀ c ∈ w, Text.isHalf c = false :=
  forall_mem_words (by decide) (by decide) (fun t c hc => (t.label_plain c hc).2.2)
    (fun t c hc => (t.label_plain c hc).2.2) fun v hv => by
      obtain ⟨s, rfl, hs⟩ := h v hv
      exact Text.isEncodable_iff.mp hs

end Legible

/-! ### The stream read back -/

section ReadBack

variable {α : Type} {key : α → String × Value} {letter : String} {xs : List α}

/-- A reference is in a list if its word is among those of the list. -/
lemma keyWord_mem_listWords (hkey : key.Injective) (hkind : ∀ x, ∀ c ∈ (key x).1.toList, c ≠ ':')
    (hxs : ∀ x ∈ xs, ∃ s, (key x).2 = .text s ∧ Text.isEncodable s) {x : α} {n : String}
    (hx : (key x).2 = .text n) : keyWord letter (key x) ∈ listWords letter key xs ↔ x ∈ xs := by
  rw [mem_listWords]
  constructor
  · rintro ⟨y, hy, hw⟩
    obtain ⟨s, hs, -⟩ := hxs y hy
    obtain ⟨hlabel, hname⟩ := keyWord_injective (fun hc => hkind y _ hc rfl)
      (fun hc => hkind x _ hc rfl) hw
    rw [hs, hx] at hname
    have hpair : key y = key x := Prod.ext hlabel (by rw [hs, hx]; exact congrArg _ hname)
    exact hkey hpair ▸ hy
  · exact fun hmem => ⟨x, hmem, rfl⟩

/-- The word of a reference is not among those of a list with another letter. -/
lemma keyWord_not_mem_listWords (key : α → String × Value) (xs : List α) {c d : Char} (hcd : c ≠ d)
    (a : String × Value) :
    keyWord (String.singleton c) a ∉ listWords (String.singleton d) key xs := by
  rw [mem_listWords]
  rintro ⟨x, -, hw⟩
  rw [keyWord, keyWord, String.toList_singleton, String.toList_singleton] at hw
  exact hcd (List.cons.inj hw).1.symm

end ReadBack

/-- What an index tells by its references. -/
def findings (i : Index) : Set Finding :=
  {f | match f with
    | .part n => Part.ofName n ∈ i.parts
    | .shared n t => SharedReference.ofPair (n, t) ∈ i.shared
    | .reference n t => ResourceReference.ofPair (n, t) ∈ i.resourceRefs
    | .qualified n => ResourceReference.ofPair (n, .className) ∈ i.resourceRefs
    | .bare _ => False}

section Findings

variable {i j : Index} {n : String}

/-- Indexes with the same references tell the same. -/
lemma findings_congr (hparts : ∀ n, Part.ofName n ∈ i.parts ↔ Part.ofName n ∈ j.parts)
    (hshared : ∀ x, SharedReference.ofPair x ∈ i.shared ↔ SharedReference.ofPair x ∈ j.shared)
    (hrefs : ∀ x, ResourceReference.ofPair x ∈ i.resourceRefs ↔
      ResourceReference.ofPair x ∈ j.resourceRefs) : i.findings = j.findings := by
  ext f
  cases f with
  | part n => exact hparts n
  | shared n t => exact hshared (n, t)
  | reference n t => exact hrefs (n, t)
  | qualified n => exact hrefs (n, .className)
  | bare n => exact Iff.rfl

lemma Legible.part_mem_iff (h : i.Legible) :
    Part.ofName n ∈ i.parts ↔ keyWord "p" (Part.ofName n).key ∈ i.referenceWords := by
  have hs := keyWord_not_mem_listWords SharedReference.key i.shared
    (c := 'p') (d := 's') (by decide) (Part.ofName n).key
  have hr := keyWord_not_mem_listWords ResourceReference.key i.resourceRefs
    (c := 'p') (d := 'r') (by decide) (Part.ofName n).key
  rw [referenceWords, List.mem_append, List.mem_append, keyWord_mem_listWords Part.key_injective
    (fun q c hc => (q.type.label_plain c hc).1) (fun q hq => h.part hq) rfl]
  exact ⟨.inl, fun hmem => hmem.resolve_right fun hmem => hmem.elim hs hr⟩

lemma Legible.shared_mem_iff (h : i.Legible) {t : PartType} :
    SharedReference.ofPair (n, t) ∈ i.shared ↔
      keyWord "s" (SharedReference.ofPair (n, t)).key ∈ i.referenceWords := by
  have hp := keyWord_not_mem_listWords Part.key i.parts
    (c := 's') (d := 'p') (by decide) (SharedReference.ofPair (n, t)).key
  have hr := keyWord_not_mem_listWords ResourceReference.key i.resourceRefs
    (c := 's') (d := 'r') (by decide) (SharedReference.ofPair (n, t)).key
  rw [referenceWords, List.mem_append, List.mem_append,
    keyWord_mem_listWords SharedReference.key_injective
      (fun r c hc => (r.type.label_plain c hc).1) (fun r hr => h.shared hr) rfl]
  exact ⟨fun hmem => .inr (.inl hmem), fun hmem => (hmem.resolve_left hp).resolve_right hr⟩

lemma Legible.reference_mem_iff (h : i.Legible) {t : ResourceType} :
    ResourceReference.ofPair (n, t) ∈ i.resourceRefs ↔
      keyWord "r" (ResourceReference.ofPair (n, t)).key ∈ i.referenceWords := by
  have hp := keyWord_not_mem_listWords Part.key i.parts
    (c := 'r') (d := 'p') (by decide) (ResourceReference.ofPair (n, t)).key
  have hs := keyWord_not_mem_listWords SharedReference.key i.shared
    (c := 'r') (d := 's') (by decide) (ResourceReference.ofPair (n, t)).key
  rw [referenceWords, List.mem_append, List.mem_append,
    keyWord_mem_listWords ResourceReference.key_injective
      (fun r c hc => (r.type.label_plain c hc).1) (fun r hr => h.reference hr) rfl]
  exact ⟨fun hmem => .inr (.inr hmem), fun hmem => (hmem.resolve_left hp).resolve_left hs⟩

/-- **The words of the references determine what an index tells.** -/
theorem Legible.findings_eq (hi : i.Legible) (hj : j.Legible)
    (h : i.referenceWords = j.referenceWords) : i.findings = j.findings := by
  refine findings_congr (fun n => ?_) (fun x => ?_) fun x => ?_
  · rw [hi.part_mem_iff, hj.part_mem_iff, h]
  · rw [hi.shared_mem_iff, hj.shared_mem_iff, h]
  · rw [hi.reference_mem_iff, hj.reference_mem_iff, h]

/-- A legible index that is tidy shows what it tells. -/
theorem Tidy.shows {p : ProcessDefinition} (ht : i.Tidy p) (h : i.Legible) :
    i.Shows p i.findings where
  processId := ht.processId
  processName := ht.processName
  resources := by
    obtain ⟨parts, hres, hdist, hvar⟩ := ht.resources
    refine ⟨parts, hres, ?_⟩
    have hparts : i.parts = parts := parts_eq hres
    have hrange : ∀ q ∈ parts, ∃ n, Part.ofName n = q := fun q hq => by
      obtain ⟨s, hs, -⟩ := h.part (hparts ▸ hq)
      exact ⟨s, by rw [Part.ofName, ← hs, ← hvar q hq]⟩
    refine (Enumerates.of_distinct hdist (fun n => (Part.same_ofName n n).mpr rfl) hrange).congr ?_
    ext n
    simp [findings, hparts]
  shared := by
    refine Enumerates.of_distinct ht.shared (fun x => (SharedReference.same_ofPair x x).mpr rfl)
      fun r hr => ?_
    obtain ⟨s, hs, -⟩ := h.shared hr
    exact ⟨(s, r.type), by rw [SharedReference.ofPair, ← hs]⟩
  references := by
    refine Enumerates.of_distinct ht.references
      (fun x => (ResourceReference.same_ofPair x x).mpr rfl) fun r hr => ?_
    obtain ⟨s, hs, -⟩ := h.reference hr
    exact ⟨(s, r.type), by rw [ResourceReference.ofPair, ← hs]⟩
  classes := by
    -- a class is the name of a reference, which is a text
    have hclass : ∀ v ∈ i.classes, ∃ n, .text n = v ∧
        ResourceReference.ofPair (n, .className) ∈ i.resourceRefs := fun v hv => by
      obtain ⟨r, hr, hclass, hname⟩ := ht.covered v hv
      obtain ⟨s, hs, -⟩ := h.reference hr
      rw [hs, Value.same_text_left] at hname
      obtain rfl : Value.text s = v := hname.elim id id
      refine ⟨s, rfl, ?_⟩
      rwa [ResourceReference.ofPair, ← hs, ← hclass]
    have hrange : ∀ v ∈ i.classes, ∃ n, .text n = v := fun v hv =>
      (hclass v hv).imp fun _ => And.left
    refine (Enumerates.of_distinct ht.classes (fun n => Value.same_text_left.mpr rfl)
      hrange).congr ?_
    ext n
    constructor
    · intro hn
      obtain ⟨m, hm, href⟩ := hclass _ hn
      obtain rfl : m = n := Value.text_injective hm
      exact href
    · exact fun hn => ht.backed _ hn rfl

end Findings

end Index

end Concordance

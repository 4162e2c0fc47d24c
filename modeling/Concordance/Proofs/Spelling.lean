import Mathlib
import Concordance.Proofs.Words

/-!
The written form of a value can be encoded, unless the value is a text that cannot.

* `Text.isEncodable_intercalate`, `Text.isEncodable_nat`, `Text.isEncodable_int` : what is put
  together from such texts, and what is written in digits.
* `Text.Quoted.isEncodable_text` : in quotes every text can be encoded, as half of a surrogate pair
  is hidden and hence escaped; `Text.isShown_eq_false` says that it is hidden.
* `Value.isEncodable_quotedIn` : the form of a value inside another, by induction on the value.
* `Value.isEncodable_display` : the form of a value on its own.
-/

namespace Concordance

/-! ### Texts put together -/

namespace Text

/-- No half of a pair stands below the private characters that stand for them. -/
lemma isHalf_eq_false_of_lt {c : Char} (h : c.toNat < 0x10d800) : isHalf c = false := by
  rw [isHalf, isHalfCode, halfShift, Bool.and_eq_false_iff, decide_eq_false_iff_not]
  left
  omega

lemma isHalf_digit {c : Char} (h : c.isDigit = true) : isHalf c = false := by
  have hle : c.val ≤ 57 := by
    rw [Char.isDigit, Bool.and_eq_true, decide_eq_true_eq, decide_eq_true_eq] at h
    exact h.2
  have hnat : c.toNat ≤ 57 := hle
  exact isHalf_eq_false_of_lt (by omega)

lemma isEncodable_ofList {cs : List Char} :
    isEncodable (.ofList cs) = true ↔ ∀ c ∈ cs, isHalf c = false := by
  rw [isEncodable_iff, String.toList_ofList]

/-- Texts joined by a text. -/
lemma isEncodable_intercalate {sep : String} (hsep : isEncodable sep = true) {xs : List String}
    (hxs : ∀ x ∈ xs, isEncodable x = true) : isEncodable (sep.intercalate xs) = true := by
  rw [isEncodable_iff, String.toList_intercalate]
  induction xs with
  | nil => simp
  | cons x xs ih =>
      rw [List.forall_mem_cons] at hxs
      have hx := isEncodable_iff.mp hxs.1
      cases xs with
      | nil => simpa [List.intercalate] using hx
      | cons y ys =>
          have hrest := ih hxs.2
          intro c hc
          simp only [List.map_cons, List.intercalate, List.intersperse_cons_cons,
            List.flatten_cons, List.mem_append] at hc hrest
          rcases hc with hc | hc | hc
          · exact hx c hc
          · exact isEncodable_iff.mp hsep c hc
          · exact hrest c (by simpa [List.intercalate] using hc)

/-! ### Numbers -/

lemma isHalf_toDigits {n : Nat} : ∀ c ∈ Nat.toDigits 10 n, isHalf c = false := fun _ hc =>
  isHalf_digit (Nat.isDigit_of_mem_toDigits (by decide) le_rfl hc)

lemma isEncodable_nat (n : Nat) : isEncodable (toString n) = true := by
  rw [Nat.toString_eq_ofList_toDigits, isEncodable_ofList]
  exact isHalf_toDigits

lemma isEncodable_int (n : Int) : isEncodable (toString n) = true := by
  cases n with
  | ofNat n => exact isEncodable_nat n
  | negSucc n =>
      change isEncodable ("-" ++ toString (n + 1)) = true
      rw [isEncodable_append, isEncodable_nat]
      decide

lemma isEncodable_padded (width n : Nat) : isEncodable (padded width n) = true := by
  rw [padded, isEncodable_ofList]
  intro c hc
  rcases List.mem_append.mp hc with hc | hc
  · rw [List.eq_of_mem_replicate hc]
    decide
  · exact isHalf_toDigits c hc

end Text

/-! ### Hidden characters -/

namespace Text

/-- A number in the last range of a table is found, if it is beyond the ranges before. -/
lemma inRanges_last {table : Array (Nat × Nat)} {c n a b : Nat} (hlast : table[n]? = some (a, b))
    (hc : a ≤ c ∧ c ≤ b) (hbefore : ∀ i < n, ∀ r, table[i]? = some r → r.1 ≤ c ∧ r.2 < c) {lo : Nat}
    (hlo : lo ≤ n) : inRanges table c lo (n + 1) = true := by
  induction hk : n + 1 - lo using Nat.strong_induction_on generalizing lo with
  | _ k ih =>
      have hhalf : (lo + (n + 1)) / 2 ≤ n := by omega
      rw [inRanges, if_pos (by omega)]
      rcases Nat.lt_or_ge ((lo + (n + 1)) / 2) n with hmid | hmid
      · have hsome : (lo + (n + 1)) / 2 < table.size := by
          have hn : n < table.size := (Array.getElem?_eq_some_iff.mp hlast).1
          omega
        obtain ⟨r, hr⟩ : ∃ r, table[(lo + (n + 1)) / 2]? = some r :=
          ⟨_, Array.getElem?_eq_getElem hsome⟩
        obtain ⟨h1, h2⟩ := hbefore _ hmid r hr
        simp only [hr]
        rw [if_neg (by omega), if_pos h2]
        exact ih _ (by omega) (by omega) rfl
      · have hn : (lo + (n + 1)) / 2 = n := by omega
        simp only [hn, hlast]
        rw [if_neg (by omega), if_neg (by omega)]

/-- Half of a pair is hidden: it stands in the last range of hidden characters. -/
lemma isShown_eq_false {c : Char} (h : isHalf c = true) : isShown c = false := by
  have hge : 0x10d800 ≤ c.toNat := by
    by_contra hlt
    rw [isHalf_eq_false_of_lt (by omega)] at h
    cases h
  have hlt : c.toNat < 0x10e000 := by
    rw [isHalf, isHalfCode, halfShift, Bool.and_eq_true, decide_eq_true_eq, decide_eq_true_eq] at h
    omega
  have hbefore : ∀ i < hiddenRanges.size - 1, ∀ r, hiddenRanges[i]? = some r →
      r.1 ≤ c.toNat ∧ r.2 < c.toNat := by
    have hall : (hiddenRanges.toList.dropLast.all fun r => r.1 ≤ 0x10d800 && r.2 < 0x10d800) =
        true := by decide +kernel
    intro i hi r hr
    have hmem : r ∈ hiddenRanges.toList.dropLast := by
      rw [List.mem_iff_getElem?]
      refine ⟨i, ?_⟩
      rw [List.getElem?_dropLast, if_pos (by simpa using hi)]
      simpa using hr
    have hr' := List.all_eq_true.mp hall r hmem
    simp only [Bool.and_eq_true, decide_eq_true_eq] at hr'
    omega
  have hlast : hiddenRanges[hiddenRanges.size - 1]? = some (0xe01f0, 0x10ffff) := by decide +kernel
  have hwithin : 0xe01f0 ≤ c.toNat ∧ c.toNat ≤ 0x10ffff := by omega
  have hfound := inRanges_last hlast hwithin hbefore (Nat.zero_le _)
  have hsize : hiddenRanges.size - 1 + 1 = hiddenRanges.size := by decide +kernel
  rw [isShown, if_neg (by omega), ← hsize, hfound]
  rfl

end Text

/-! ### Quotes -/

namespace Text

lemma isHalf_hexOf (width : Nat) : ∀ n, ∀ c ∈ hexOf n width, isHalf c = false := by
  have hdigit : ∀ m < 16, isHalf (hexDigit m) = false := by decide
  induction width with
  | zero => simp [hexOf]
  | succ width ih =>
      intro n c hc
      rcases List.mem_append.mp hc with hc | hc
      · exact ih _ c hc
      · rw [List.mem_singleton.mp hc]
        exact hdigit _ (Nat.mod_lt n (by decide))

namespace Quoted

lemma isHalf_quoteFor (cs : List Char) : isHalf (quoteFor cs) = false := by
  rw [quoteFor]
  split <;> decide

lemma isHalf_escape (n : Nat) : ∀ c ∈ escape n, isHalf c = false := by
  have hmark : ∀ {m : Char} {width : Nat}, isHalf m = false →
      ∀ c ∈ '\\' :: m :: hexOf n width, isHalf c = false := fun hm => by
    rw [List.forall_mem_cons, List.forall_mem_cons]
    exact ⟨by decide, hm, isHalf_hexOf _ n⟩
  rw [escape]
  split
  · exact hmark (by decide)
  · split
    · exact hmark (by decide)
    · exact hmark (by decide)

/-- Between quotes there is no half of a pair. -/
lemma isHalf_char {quote c : Char} (hquote : isHalf quote = false) :
    ∀ d ∈ char quote c, isHalf d = false := by
  have hescaped : ∀ m, isHalf m = false → ∀ d ∈ ['\\', m], isHalf d = false := fun m hm =>
    List.forall_mem_cons.mpr ⟨by decide, List.forall_mem_singleton.mpr hm⟩
  rw [char]
  split
  · next h =>
      have hc : isHalf c = false := by
        rcases (by simpa using h : c = quote ∨ c = '\\') with rfl | rfl
        · exact hquote
        · decide
      exact hescaped c hc
  split
  · exact hescaped 'n' (by decide)
  split
  · exact hescaped 'r' (by decide)
  split
  · exact hescaped 't' (by decide)
  split
  · next hshown =>
      have hc : isHalf c = false := by
        by_contra hhalf
        rw [isShown_eq_false (by simpa using hhalf)] at hshown
        cases hshown
      simpa using hc
  · exact isHalf_escape _

/-- A text in quotes can be encoded. -/
lemma isEncodable_text (s : String) : isEncodable (text s) = true := by
  have hq := isHalf_quoteFor s.toList
  rw [text, isEncodable_ofList]
  simp only [List.forall_mem_cons, List.forall_mem_append, List.mem_flatMap, List.mem_singleton,
    forall_eq]
  exact ⟨hq, fun c ⟨_, _, hc⟩ => isHalf_char hq c hc, hq⟩

/-- Bytes in quotes can be encoded. -/
lemma isEncodable_bytes (bs : List UInt8) : isEncodable (bytes bs) = true := by
  have hq := isHalf_quoteFor (bs.map fun b => Char.ofNat b.toNat)
  have hbyte : ∀ (q : Char) (b : UInt8), isHalf q = false → ∀ c ∈ byte q b, isHalf c = false := by
    intro q b hq
    rw [byte]
    split
    · exact isHalf_char hq
    · exact isHalf_escape _
  rw [bytes, isEncodable_ofList]
  simp only [List.forall_mem_cons, List.forall_mem_append, List.mem_flatMap, List.mem_singleton,
    forall_eq]
  exact ⟨by decide, hq, fun c ⟨b, _, hc⟩ => hbyte _ b hq c hc, hq⟩

end Quoted

end Text

/-! ### Doubles, dates and moments -/

namespace Binary64

lemma isHalf_shortest {m : Nat} {e : Int} : ∀ c ∈ (shortest m e).1, Text.isHalf c = false := by
  intro c hc
  have hmem : ∀ n, c ∈ significant n → c ∈ Nat.toDigits 10 n := fun n h => by
    rw [significant, List.mem_reverse] at h
    exact List.mem_reverse.mp (List.dropWhile_subset _ h)
  exact Text.isHalf_toDigits c (hmem _ hc)

lemma isHalf_exponentText {n : Int} : ∀ c ∈ exponentText n, Text.isHalf c = false := by
  have hdigits : ∀ c ∈ Nat.toDigits 10 n.natAbs, Text.isHalf c = false := Text.isHalf_toDigits
  rw [exponentText, List.forall_mem_cons]
  refine ⟨by split <;> decide, ?_⟩
  split
  · exact List.forall_mem_cons.mpr ⟨by decide, hdigits⟩
  · exact hdigits

variable {ds : List Char} (hds : ∀ c ∈ ds, Text.isHalf c = false)
include hds

lemma isHalf_positional (p : Int) : ∀ c ∈ positional ds p, Text.isHalf c = false := by
  have hzeros : ∀ k, ∀ c ∈ List.replicate k '0', Text.isHalf c = false := fun k c hc => by
    rw [List.eq_of_mem_replicate hc]
    decide
  have hpoint : Text.isHalf '.' = false ∧ Text.isHalf '0' = false := by decide
  rw [positional]
  split
  · simp only [List.forall_mem_cons, List.forall_mem_append]
    exact ⟨hpoint.2, hpoint.1, hzeros _, hds⟩
  split
  · simp only [List.forall_mem_append, List.forall_mem_cons]
    exact ⟨⟨hds, hzeros _⟩, hpoint.1, hpoint.2, List.forall_mem_nil _⟩
  · simp only [List.forall_mem_append, List.forall_mem_cons]
    exact ⟨fun c hc => hds c (List.mem_of_mem_take hc), hpoint.1,
      fun c hc => hds c (List.mem_of_mem_drop hc)⟩

lemma isHalf_scientific (p : Int) : ∀ c ∈ scientific ds p, Text.isHalf c = false := by
  have hhead : ∀ c ∈ ds.take 1, Text.isHalf c = false := fun c hc =>
    hds c (List.mem_of_mem_take hc)
  have hrest : ∀ c ∈ ds.drop 1, Text.isHalf c = false := fun c hc =>
    hds c (List.mem_of_mem_drop hc)
  have hmarks : Text.isHalf '.' = false ∧ Text.isHalf 'e' = false := by decide
  rw [scientific]
  generalize ds.drop 1 = rest at hrest ⊢
  rcases rest with _ | ⟨x, rest⟩
  · simp only [List.forall_mem_append, List.forall_mem_cons]
    exact ⟨⟨hhead, List.forall_mem_nil _⟩, hmarks.2, isHalf_exponentText⟩
  · simp only [List.forall_mem_append, List.forall_mem_cons] at hrest ⊢
    exact ⟨⟨hhead, hmarks.1, hrest⟩, hmarks.2, isHalf_exponentText⟩

end Binary64

lemma Binary64.isEncodable_decimal {infinity notANumber : String}
    (hinfinity : Text.isEncodable infinity = true)
    (hnotANumber : Text.isEncodable notANumber = true)
    (x : Binary64) : Text.isEncodable (x.decimal infinity notANumber) = true := by
  have hminus : Text.isEncodable "-" = true := by decide
  have hbody : ∀ m e, Text.isEncodable (.ofList (unsignedDecimal m e)) = true := fun m e => by
    rw [Text.isEncodable_ofList, unsignedDecimal]
    split
    · have hzero : Text.isHalf '0' = false ∧ Text.isHalf '.' = false := by decide
      simp [hzero]
    · split
      rename_i ds p hshortest
      have hds : ∀ c ∈ ds, Text.isHalf c = false := fun c hc =>
        isHalf_shortest c (by rw [hshortest]; exact hc)
      split
      · exact isHalf_positional hds p
      · exact isHalf_scientific hds p
  cases x with
  | nan label => exact hnotANumber
  | inf neg =>
      rw [decimal]
      split
      · rw [Text.isEncodable_append, hminus, hinfinity]; rfl
      · exact hinfinity
  | finite neg m e =>
      rw [decimal]
      split
      · rw [Text.isEncodable_append, hminus, hbody]; rfl
      · exact hbody m e

lemma Date.isEncodable_text (d : Date) : Text.isEncodable d.text = true := by
  have hhyphen : Text.isEncodable "-" = true := by decide
  simp only [Date.text, Text.isEncodable_append, Text.isEncodable_padded, hhyphen, Bool.and_self]

/-- Numbers joined by commas. -/
lemma Text.isEncodable_numbers (ns : List Nat) :
    Text.isEncodable (", ".intercalate (ns.map toString)) = true :=
  Text.isEncodable_intercalate (by decide) (List.forall_mem_map.mpr fun n _ =>
    Text.isEncodable_nat n)

lemma Date.isEncodable_quoted (d : Date) : Text.isEncodable d.quoted = true := by
  have hname : Text.isEncodable "datetime.date(" = true ∧ Text.isEncodable ")" = true := by decide
  simp only [Date.quoted, Text.isEncodable_append, Text.isEncodable_numbers, hname, Bool.and_self]

namespace Moment

lemma isEncodable_offsetText (o : Int) : Text.isEncodable (offsetText o) = true := by
  have hsign : ∀ c : Prop, [Decidable c] → Text.isEncodable (if c then "-" else "+") = true :=
    fun c _ => by split <;> decide
  have hcolon : Text.isEncodable ":" = true := by decide
  simp only [offsetText, Text.isEncodable_append, Text.isEncodable_padded, hsign, hcolon,
    Bool.and_self]

lemma isEncodable_text (m : Moment) : Text.isEncodable m.text = true := by
  have hmarks : Text.isEncodable " " = true ∧ Text.isEncodable ":" = true := by decide
  have hmicro : Text.isEncodable (if m.micro = 0 then "" else "." ++ padded 6 m.micro) = true := by
    split
    · decide
    · rw [Text.isEncodable_append, Text.isEncodable_padded]
      decide
  have hoffset : Text.isEncodable ((m.offset.map offsetText).getD "") = true := by
    rcases m.offset with _ | o
    · decide
    · exact isEncodable_offsetText o
  simp only [Moment.text, Text.isEncodable_append, Date.isEncodable_text, Text.isEncodable_padded,
    hmarks, hmicro, hoffset, Bool.and_self]

lemma isEncodable_offsetQuoted (o : Int) : Text.isEncodable (offsetQuoted o) = true := by
  rw [offsetQuoted]
  split
  · decide +kernel
  · have hdays : Text.isEncodable (if o < 0 then "days=-1, " else "") = true := by split <;> decide
    have hname : Text.isEncodable "datetime.timezone(datetime.timedelta(" = true ∧
        Text.isEncodable "seconds=" = true ∧ Text.isEncodable "))" = true := by decide +kernel
    simp only [Text.isEncodable_append, Text.isEncodable_int, hdays, hname, Bool.and_self]

lemma isEncodable_quoted (m : Moment) : Text.isEncodable m.quoted = true := by
  have hzone : Text.isEncodable
      ((m.offset.map fun o => ", tzinfo=" ++ offsetQuoted o).getD "") = true := by
    rcases m.offset with _ | o
    · decide
    · have hname : Text.isEncodable ", tzinfo=" = true := by decide +kernel
      rw [Option.map_some, Option.getD_some, Text.isEncodable_append, hname,
        isEncodable_offsetQuoted, Bool.and_self]
  have hname : Text.isEncodable "datetime.datetime(" = true ∧ Text.isEncodable ")" = true := by
    decide +kernel
  change Text.isEncodable ("datetime.datetime(" ++
    ", ".intercalate (List.map toString (_ : List Nat)) ++
    (m.offset.map fun o => ", tzinfo=" ++ offsetQuoted o).getD "" ++ ")") = true
  rw [Text.isEncodable_append, Text.isEncodable_append, Text.isEncodable_append,
    Text.isEncodable_numbers, hzone, hname.1, hname.2]
  rfl

end Moment

/-! ### Values -/

namespace Value

lemma isEncodable_commas {xs : List String} (h : ∀ x ∈ xs, Text.isEncodable x = true) :
    Text.isEncodable (commas xs) = true :=
  Text.isEncodable_intercalate (by decide) h

lemma isEncodable_recordText {name : String} {fields : List (String × String)}
    (hname : Text.isEncodable name = true)
    (h : ∀ f ∈ fields, Text.isEncodable f.1 = true ∧ Text.isEncodable f.2 = true) :
    Text.isEncodable (recordText name fields) = true := by
  have hmarks : Text.isEncodable "(" = true ∧ Text.isEncodable ")" = true ∧
      Text.isEncodable "=" = true := by decide
  have hfields : Text.isEncodable (commas (fields.map fun f => f.1 ++ "=" ++ f.2)) = true := by
    refine isEncodable_commas (List.forall_mem_map.mpr fun f hf => ?_)
    simp only [Text.isEncodable_append, h f hf, hmarks, Bool.and_self]
  simp only [recordText, Text.isEncodable_append, hname, hmarks, hfields, Bool.and_self]

lemma isEncodable_tupleText {xs : List String} (h : ∀ x ∈ xs, Text.isEncodable x = true) :
    Text.isEncodable (tupleText xs) = true := by
  have hmarks : Text.isEncodable "(" = true ∧ Text.isEncodable ",)" = true ∧
      Text.isEncodable ")" = true := by decide
  rw [tupleText.eq_def]
  split
  · next x =>
      simp only [Text.isEncodable_append, h x (List.mem_singleton.mpr rfl), hmarks, Bool.and_self]
  · simp only [Text.isEncodable_append, isEncodable_commas h, hmarks, Bool.and_self]

lemma isEncodable_setText {frozen : Bool} {xs : List String}
    (h : ∀ x ∈ xs, Text.isEncodable x = true) : Text.isEncodable (setText frozen xs) = true := by
  rw [setText.eq_def]
  split
  · decide
  · decide
  · simp only [Text.isEncodable_append, isEncodable_commas h, Bool.and_true]
    decide
  · simp only [Text.isEncodable_append, isEncodable_commas h, Bool.and_true]
    decide

lemma isEncodable_partTypeQuoted (t : PartType) : Text.isEncodable (partTypeQuoted t) = true := by
  cases t <;> decide

lemma isEncodable_resourceTypeQuoted (t : ResourceType) :
    Text.isEncodable (resourceTypeQuoted t) = true := by
  cases t <;> decide

mutual

/-- **Inside another value every value can be encoded.** -/
theorem isEncodable_quotedIn (around : List Mark) :
    ∀ v : Value, Text.isEncodable (quotedIn around v) = true
  | null => by
      rw [quotedIn]
      decide
  | bool b => by
      rw [quotedIn]
      cases b <;> decide
  | int n => Text.isEncodable_int n
  | float x => Binary64.isEncodable_decimal (by decide) (by decide) x
  | text s => Text.Quoted.isEncodable_text s
  | bytes bs => Text.Quoted.isEncodable_bytes bs
  | date d _ => d.isEncodable_quoted
  | moment m _ => m.isEncodable_quoted
  | list xs mark => by
      rw [quotedIn]
      split
      · decide
      · simp only [Text.isEncodable_append, isEncodable_commas (isEncodable_quotedAll _ xs)]
        decide
  | tuple xs mark => by
      rw [quotedIn]
      split
      · decide
      · exact isEncodable_tupleText (isEncodable_quotedAll _ xs)
  | set frozen xs mark => isEncodable_setText (isEncodable_quotedAll _ xs)
  | dict es mark => by
      rw [quotedIn]
      split
      · decide
      · simp only [Text.isEncodable_append, isEncodable_commas (isEncodable_quotedEntries _ es)]
        decide
  | partType t => isEncodable_partTypeQuoted t
  | resourceType t => isEncodable_resourceTypeQuoted t
  | node a b => isEncodable_recordText (by decide) (by
      simp only [List.forall_mem_cons, isEncodable_quotedIn around a,
        isEncodable_quotedIn around b, and_true]
      decide)
  | ruleSet a b c => isEncodable_recordText (by decide) (by
      simp only [List.forall_mem_cons, isEncodable_quotedIn around a,
        isEncodable_quotedIn around b, isEncodable_quotedIn around c, and_true]
      decide)
  | workItem a b c => isEncodable_recordText (by decide) (by
      simp only [List.forall_mem_cons, isEncodable_quotedIn around a,
        isEncodable_quotedIn around b, isEncodable_quotedIn around c, and_true]
      decide)
  | subProcess a b c d => isEncodable_recordText (by decide) (by
      simp only [List.forall_mem_cons, isEncodable_quotedIn around a,
        isEncodable_quotedIn around b, isEncodable_quotedIn around c,
        isEncodable_quotedIn around d, and_true]
      decide)
  | var a b c => isEncodable_recordText (by decide) (by
      simp only [List.forall_mem_cons, isEncodable_quotedIn around a,
        isEncodable_quotedIn around b, isEncodable_quotedIn around c, and_true]
      decide)
  | item a b => isEncodable_recordText (by decide) (by
      simp only [List.forall_mem_cons, isEncodable_quotedIn around a,
        isEncodable_quotedIn around b, and_true]
      decide)
  | message a b c => isEncodable_recordText (by decide) (by
      simp only [List.forall_mem_cons, isEncodable_quotedIn around a,
        isEncodable_quotedIn around b, isEncodable_quotedIn around c, and_true]
      decide)
  | process a b c d e f g h i j k => isEncodable_recordText (by decide) (by
      simp only [List.forall_mem_cons, isEncodable_quotedIn around a,
        isEncodable_quotedIn around b, isEncodable_quotedIn around c,
        isEncodable_quotedIn around d, isEncodable_quotedIn around e,
        isEncodable_quotedIn around f, isEncodable_quotedIn around g,
        isEncodable_quotedIn around h, isEncodable_quotedIn around i,
        isEncodable_quotedIn around j, isEncodable_quotedIn around k, and_true]
      decide)
  | part a t => isEncodable_recordText (by decide) (by
      simp only [List.forall_mem_cons, isEncodable_quotedIn around a,
        isEncodable_partTypeQuoted t, and_true]
      decide)
  | shared a t => isEncodable_recordText (by decide) (by
      simp only [List.forall_mem_cons, isEncodable_quotedIn around a,
        isEncodable_partTypeQuoted t, and_true]
      decide)
  | resourceRef a t => isEncodable_recordText (by decide) (by
      simp only [List.forall_mem_cons, isEncodable_quotedIn around a,
        isEncodable_resourceTypeQuoted t, and_true]
      decide)
  | resource a t ps frozen => isEncodable_recordText (by decide) (by
      simp only [List.forall_mem_cons, isEncodable_quotedIn around a,
        isEncodable_resourceTypeQuoted t, isEncodable_setText (isEncodable_quotedAll around ps),
        and_true]
      decide)
  | index a b rs ss qs cs => isEncodable_recordText (by decide) (by
      simp only [List.forall_mem_cons, isEncodable_quotedIn around a,
        isEncodable_quotedIn around b, isEncodable_tupleText (isEncodable_quotedAll around rs),
        isEncodable_setText (isEncodable_quotedAll around ss),
        isEncodable_setText (isEncodable_quotedAll around qs),
        isEncodable_setText (isEncodable_quotedAll around cs), and_true]
      decide)

/-- The same for several values. -/
theorem isEncodable_quotedAll (around : List Mark) :
    ∀ xs : List Value, ∀ x ∈ quotedAll around xs, Text.isEncodable x = true
  | [] => by simp [quotedAll]
  | x :: xs => List.forall_mem_cons.mpr
      ⟨isEncodable_quotedIn around x, isEncodable_quotedAll around xs⟩

/-- The same for the entries of a mapping. -/
theorem isEncodable_quotedEntries (around : List Mark) :
    ∀ es : List (Value × Value), ∀ x ∈ quotedEntries around es, Text.isEncodable x = true
  | [] => by simp [quotedEntries]
  | (k, v) :: es => by
      have hcolon : Text.isEncodable ": " = true := by decide
      refine List.forall_mem_cons.mpr ⟨?_, isEncodable_quotedEntries around es⟩
      simp only [Text.isEncodable_append, isEncodable_quotedIn around k,
        isEncodable_quotedIn around v, hcolon, Bool.and_self]

end

/-- **On its own every value can be encoded** that is not a text, and so can the texts that can. -/
theorem isEncodable_display {v : Value} (h : ∀ s, v = .text s → Text.isEncodable s = true) :
    Text.isEncodable v.display = true := by
  cases v with
  | text s => exact h s rfl
  | date d _ => exact d.isEncodable_text
  | moment m _ => exact m.isEncodable_text
  | partType t => cases t <;> decide
  | resourceType t => cases t <;> decide
  | _ => exact isEncodable_quotedIn [] _

end Value

end Concordance

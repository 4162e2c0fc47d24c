import Mathlib
import Concordance.Proofs.Rebuild
import Concordance.Proofs.Settings
import Concordance.Settings.Store

/-!
The layers of the settings: each setting has the value of the highest layer that defines it.

* `SettingKey.defined?` : the value that the entries of a file define for a setting.
  `Layer.WellTyped`, `Layer.Orderly` : all sections are mappings, and all settings have their
  declared types.
* `Layer.defined?_merge` : what two layers define together.
* `Settings.ofValue?_of_sectioned` : the settings are read one by one, as soon as all sections are
  mappings (`Layer.Sectioned`).
* `Override.define_cases` : what a variable of the environment makes of entries of any kind.
  `Override.define_spec` : it defines its own setting and no other, also where one mapping stands for
  several sections.
* `Layer.load_yields` : how the layers are loaded, with what is logged.
-/

namespace Concordance

/-- The entries of a mapping. -/
abbrev Entries := List (Value × Value)

/-! ### Looking up texts -/

namespace Value

variable {es fs : Entries} {k v w : Value} {s : String}

lemma lookup?_put_self (es : Entries) (s : String) (v : Value) :
    lookup? (put es (.text s) v) (.text s) = some v := (put_entered _ v es).find?_text

lemma lookup?_put_other (hk : k ≠ .text s) : lookup? (put es k v) (.text s) =
    lookup? es (.text s) := (put_entered k v es).find?_text_other hk

/-- No key stands twice. -/
def KeyedOnce (es : Entries) : Prop := Distinct (fun e f => same e.1 f.1) es

lemma KeyedOnce.head_other (h : KeyedOnce ((.text s, v) :: es)) :
    lookup? es (.text s) = none := by
  rw [lookup?, Option.map_eq_none_iff, List.find?_eq_none]
  intro e he hsame
  have hne : same (.text s) e.1 = false := (List.pairwise_cons.mp h).1 e he
  rw [same_text_right.mp hsame, Bool.eq_false_iff, Ne, same_text_left] at hne
  exact hne rfl

end Value

open Value (lookup? field? put KeyedOnce)

/-! ### One mapping over another -/

namespace Layer

variable {base fs : Entries} {s : String} {v w : Value}

/-- What is found where one value is laid over what may be there. -/
def laidOver (old : Option Value) (v : Value) : Value :=
  match old with
  | some old => overlay old v
  | none => v

lemma merge_cons (base : Entries) (k v : Value) (fs : Entries) : merge base ((k, v) :: fs) =
    merge (put base k (laidOver (lookup? base k) v)) fs := by
  rw [merge]
  rfl

/-- **One mapping over another**: what the upper one has lies over what the lower one has. -/
lemma lookup?_merge (h : KeyedOnce fs) : lookup? (merge base fs) (.text s) =
    ((lookup? fs (.text s)).map (laidOver (lookup? base (.text s)))).or
      (lookup? base (.text s)) := by
  induction fs generalizing base with
  | nil => simp [merge, lookup?]
  | cons e fs ih =>
      obtain ⟨k, v⟩ := e
      rw [merge_cons, ih (List.pairwise_cons.mp h).2]
      by_cases hk : k = .text s
      · subst hk
        rw [h.head_other, Value.lookup?_cons_self, Value.lookup?_put_self]
        rfl
      · rw [Value.lookup?_cons_other hk, Value.lookup?_put_other hk]

/-- Only a mapping is merged into another. -/
lemma overlay_of_not_isMapping (h : v.isMapping = false) : overlay w v = v := by
  cases v with
  | dict _ _ => cases h
  | _ => rw [overlay]; nofun

lemma laidOver_of_not_isMapping {old : Option Value} (h : v.isMapping = false) :
    laidOver old v = v := by
  cases old with
  | none => rfl
  | some w => exact overlay_of_not_isMapping h

lemma overlay_dict (os gs : Entries) (mark mark' : Option Mark) :
    overlay (.dict os mark) (.dict gs mark') = .dict (merge os gs) := by
  rw [overlay]

/-- A mapping stays as it is where it is laid over nothing, or over what is none. -/
lemma laidOver_dict_of_none {old : Option Value} {gs : Entries} {mark : Option Mark}
    (h : ¬∃ os mark', old = some (.dict os mark')) :
    laidOver old (.dict gs mark) = .dict gs mark := by
  rcases old with _ | old
  · rfl
  · rw [laidOver, overlay]
    rintro es mark rfl
    exact h ⟨es, mark, rfl⟩

end Layer

/-! ### What a layer defines -/

instance : Fintype SettingsSection where
  elems := ⟨([.resolver, .dialects, .pipeline, .display, .logging] : List SettingsSection),
    by decide⟩
  complete g := by cases g <;> decide

instance : Fintype SettingKey where
  elems := ⟨SettingKey.all, by decide⟩
  complete k := by cases k <;> decide


namespace SettingKey

/-- The value that entries define for a setting. -/
def defined? (k : SettingKey) (es : Entries) : Option Value :=
  (field? es k.home.label).bind fun v => field? v.fields k.label

/-- The declared type of a setting; a truth value counts as an integer. -/
def Admits : SettingKey → Value → Prop
  | builtinTypes, v | enabledDialects, v => ∃ xs mark, v = .list xs mark ∧ ∀ x ∈ xs, x.isText
  | workers, v => ∃ n, v.integer? = some n
  | publishToMetadata, v => ∃ b, v = .bool b
  | _, v => ∃ s, v = .text s

/-- Whether a value is of the declared type of a setting. -/
def admits : SettingKey → Value → Bool
  | builtinTypes, v | enabledDialects, v => match v with
    | .list xs _ => xs.all Value.isText
    | _ => false
  | workers, v => v.integer?.isSome
  | publishToMetadata, v => match v with
    | .bool _ => true
    | _ => false
  | _, v => v.isText

lemma admits_iff {k : SettingKey} {v : Value} : k.admits v = true ↔ k.Admits v := by
  cases k with
  | builtinTypes | enabledDialects =>
      cases v with
      | list xs mark => simp [admits, Admits]
      | _ => simp [admits, Admits]
  | workers => exact Option.isSome_iff_exists
  | publishToMetadata => cases v <;> simp [admits, Admits]
  | _ => exact Value.isText_iff

instance (k : SettingKey) (v : Value) : Decidable (k.Admits v) := decidable_of_iff _ admits_iff

/-- The value that a setting takes from one of its declared type. -/
def taken : SettingKey → Value → Value
  | builtinTypes, v | enabledDialects, v => .list v.elements
  | workers, v => .int (v.integer?.getD 0)
  | _, v => v

variable {k : SettingKey} {v : Value}

lemma Admits.not_isMapping (h : k.Admits v) : v.isMapping = false := by
  cases k with
  | builtinTypes | enabledDialects =>
      obtain ⟨xs, mark, rfl, -⟩ := h
      rfl
  | workers =>
      obtain ⟨n, hn⟩ := h
      cases v with
      | dict _ _ => cases hn
      | _ => rfl
  | publishToMetadata =>
      obtain ⟨b, rfl⟩ := h
      rfl
  | _ =>
      obtain ⟨s, rfl⟩ := h
      rfl

lemma sameList_of_texts {xs : List Value} (h : ∀ x ∈ xs, x.isText) :
    Value.sameList xs xs = true := by
  induction xs with
  | nil => rw [Value.sameList]
  | cons x xs ih =>
      rw [List.forall_mem_cons] at h
      obtain ⟨s, rfl⟩ := Value.isText_iff.mp h.1
      rw [Value.sameList, ih h.2, Value.same_text_left.mpr rfl]
      rfl

/-- What a setting takes is equal to what is defined. -/
lemma Admits.taken_same (h : k.Admits v) : (k.taken v).same v = true := by
  cases k with
  | builtinTypes | enabledDialects =>
      obtain ⟨xs, mark, rfl, hxs⟩ := h
      rw [taken, Value.same]
      exact sameList_of_texts hxs
  | workers =>
      obtain ⟨n, hn⟩ := h
      rw [taken, hn]
      cases v with
      | bool b | int m =>
          cases hn
          simp [Value.same, Value.sameNumber, Value.integer?]
      | _ => cases hn
  | publishToMetadata =>
      obtain ⟨b, rfl⟩ := h
      simp [taken, Value.same, Value.sameNumber, Value.integer?]
  | _ =>
      obtain ⟨s, rfl⟩ := h
      exact Value.same_text_left.mpr rfl

lemma label_injective : Function.Injective label := by
  intro k l h
  cases k <;> cases l <;> first | rfl | exact absurd h (by decide)

/-- Every section has a setting. -/
lemma home_surjective : Function.Surjective home := by
  intro g
  cases g with
  | resolver => exact ⟨basePackage, rfl⟩
  | dialects => exact ⟨enabledDialects, rfl⟩
  | pipeline => exact ⟨workers, rfl⟩
  | display => exact ⟨symbols, rfl⟩
  | logging => exact ⟨level, rfl⟩

lemma home_label_injective : Function.Injective SettingsSection.label := by
  intro h g heq
  cases h <;> cases g <;> first | rfl | exact absurd heq (by decide)

lemma admits_default (k : SettingKey) : k.Admits (k.get {}) := by
  have htexts : ∀ ss : List String, ∀ x ∈ textValues ss, x.isText := fun ss x hx => by
    obtain ⟨s, -, rfl⟩ := List.mem_map.mp hx
    rfl
  cases k with
  | builtinTypes => exact ⟨_, none, rfl, htexts _⟩
  | enabledDialects => exact ⟨_, none, rfl, htexts _⟩
  | _ => exact ⟨_, rfl⟩

end SettingKey

namespace Layer

variable {base es fs : Entries} {k : SettingKey}

/-- All known sections are mappings. -/
def Sectioned (es : Entries) : Prop :=
  ∀ (g : SettingsSection) v, field? es g.label = some v → v.isMapping = true

/-- All known sections are mappings, and all known settings have their declared types. -/
structure WellTyped (es : Entries) : Prop where
  sections : ∀ (h : SettingsSection) v, field? es h.label = some v → v.isMapping = true
  settings : ∀ (k : SettingKey) v, k.defined? es = some v → k.Admits v

/-- The entries of a file whose settings have their declared types; in its mappings no key stands
twice. -/
structure Orderly (es : Entries) : Prop extends WellTyped es where
  once : KeyedOnce es
  sectionsOnce : ∀ (h : SettingsSection) v, field? es h.label = some v → KeyedOnce v.fields

instance decidableKeyedOnce (es : Entries) : Decidable (KeyedOnce es) :=
  inferInstanceAs (Decidable (List.Pairwise _ es))

/-- It can be checked setting by setting. -/
lemma orderly_iff : Orderly es ↔ KeyedOnce es ∧ ∀ k : SettingKey,
    ∀ v ∈ field? es k.home.label, v.isMapping = true ∧ KeyedOnce v.fields ∧
      ∀ w ∈ field? v.fields k.label, k.Admits w := by
  constructor
  · refine fun h => ⟨h.once, fun k v hv => ⟨h.sections _ v hv, h.sectionsOnce _ v hv, ?_⟩⟩
    intro w hw
    refine h.settings k w ?_
    rw [SettingKey.defined?, Option.mem_def.mp hv]
    exact hw
  · rintro ⟨honce, h⟩
    refine ⟨⟨fun g v hv => ?_, fun k w hw => ?_⟩, honce, fun g v hv => ?_⟩
    · obtain ⟨k, rfl⟩ := SettingKey.home_surjective g
      exact (h k v hv).1
    · obtain ⟨v, hv, hw⟩ := Option.bind_eq_some_iff.mp hw
      exact (h k v hv).2.2 w hw
    · obtain ⟨k, rfl⟩ := SettingKey.home_surjective g
      exact (h k v hv).2.1

instance decidableOrderly (es : Entries) : Decidable (Orderly es) :=
  decidable_of_iff _ orderly_iff.symm

lemma Sectioned.dict (h : Sectioned es) {g : SettingsSection} {v : Value}
    (hv : field? es g.label = some v) : ∃ fs mark, v = .dict fs mark := by
  have hmapping := h g v hv
  cases v with
  | dict fs mark => exact ⟨fs, mark, rfl⟩
  | _ => cases hmapping

/-- A section laid over what may be there is a mapping. -/
lemma isMapping_laidOver {old : Option Value} {v : Value} (h : v.isMapping = true) :
    (laidOver old v).isMapping = true := by
  cases v with
  | dict gs mark =>
      by_cases hold : ∃ os mark', old = some (.dict os mark')
      · obtain ⟨os, mark', rfl⟩ := hold
        rw [laidOver, overlay_dict]
        rfl
      · rw [laidOver_dict_of_none hold]
        rfl
  | _ => cases h

/-- What stands in a section that is laid over what may be there. -/
lemma field?_laidOver {old : Option Value} {v : Value} {label : String}
    (hv : v.isMapping = true) (honce : KeyedOnce v.fields)
    (hleaf : ∀ w, field? v.fields label = some w → w.isMapping = false) :
    field? (laidOver old v).fields label =
      (field? v.fields label).or (old.bind fun old => field? old.fields label) := by
  cases v with
  | dict gs mark =>
      change ∀ w, field? gs label = some w → w.isMapping = false at hleaf
      change KeyedOnce gs at honce
      change _ = (field? gs label).or _
      by_cases hold : ∃ os mark', old = some (.dict os mark')
      · obtain ⟨os, mark', rfl⟩ := hold
        rw [laidOver, overlay_dict]
        change lookup? (merge os gs) (.text label) = (field? gs label).or (field? os label)
        rw [lookup?_merge honce]
        rcases hw : lookup? gs (.text label) with _ | w
        · rw [field?, hw]
          rfl
        · rw [field?, hw, Option.map_some, laidOver_of_not_isMapping (hleaf w hw)]
          rfl
      · rw [laidOver_dict_of_none hold]
        rcases old with _ | old
        · exact (Option.or_none).symm
        · cases old with
          | dict os mark' => exact (hold ⟨os, mark', rfl⟩).elim
          | _ => exact (Option.or_none).symm
  | _ => cases hv

/-- **Two layers together**: a setting has the value of the upper one if that defines it, else that
of the lower one, of which nothing else is asked. -/
lemma defined?_merge (h : Orderly fs) :
    k.defined? (merge base fs) = (k.defined? fs).or (k.defined? base) := by
  have hfield : field? (merge base fs) k.home.label =
      ((field? fs k.home.label).map (laidOver (field? base k.home.label))).or
        (field? base k.home.label) := lookup?_merge h.once
  rw [SettingKey.defined?, SettingKey.defined?, SettingKey.defined?, hfield]
  rcases hv : field? fs k.home.label with _ | v
  · rfl
  · refine field?_laidOver (h.sections _ v hv) (h.sectionsOnce _ v hv) fun w hw => ?_
    exact (h.settings k w (by rw [SettingKey.defined?, hv]; exact hw)).not_isMapping

/-- Only what the upper layer leaves open is asked of the lower one. -/
lemma wellTyped_merge (hf : Orderly fs)
    (hsections : ∀ (g : SettingsSection) v, field? fs g.label = none →
      field? base g.label = some v → v.isMapping = true)
    (hsettings : ∀ (k : SettingKey) v, k.defined? fs = none → k.defined? base = some v →
      k.Admits v) : WellTyped (merge base fs) where
  sections g v hv := by
    rw [field?, lookup?_merge hf.once] at hv
    rcases hw : field? fs g.label with _ | w
    · rw [show lookup? fs (.text g.label) = none from hw] at hv
      exact hsections g v hw hv
    · rw [show lookup? fs (.text g.label) = some w from hw] at hv
      cases hv
      exact isMapping_laidOver (hf.sections g w hw)
  settings k v hv := by
    rw [defined?_merge hf, Option.or_eq_some_iff] at hv
    rcases hv with hv | ⟨hnone, hv⟩
    · exact hf.settings k v hv
    · exact hsettings k v hnone hv

lemma WellTyped.merge (hb : WellTyped base) (hf : Orderly fs) : WellTyped (merge base fs) :=
  wellTyped_merge hf (fun g v _ => hb.sections g v) fun k v _ => hb.settings k v

lemma wellTyped_nil : WellTyped [] := ⟨nofun, nofun⟩

end Layer

/-! ### Reading the settings -/

namespace Settings

variable {es : Entries}

lemma getOr_dict (es : Entries) (mark : Option Mark) (key : String) (default : Value) :
    getOr (.dict es mark) key default = .ok ((field? es key).getD default) := rfl

/-- What is there to read for a setting: what is defined for it, or its default. -/
def given (es : Entries) (k : SettingKey) : Value := (k.defined? es).getD (k.get {})

lemma given_admits (h : Layer.WellTyped es) (k : SettingKey) : k.Admits (given es k) := by
  rw [given]
  rcases hv : k.defined? es with _ | v
  · exact k.admits_default
  · exact h.settings k v hv

/-- A section that is missing is as an empty one. -/
lemma exists_section (h : Layer.Sectioned es) (g : SettingsSection) : ∃ v,
    getOr (.dict es) g.label (.dict []) = .ok v ∧
      ∀ k : SettingKey, k.home = g → getOr v k.label (k.get {}) = .ok (given es k) := by
  rw [getOr_dict]
  rcases hv : field? es g.label with _ | v
  · refine ⟨_, rfl, ?_⟩
    rintro k rfl
    rw [given, SettingKey.defined?, hv]
    rfl
  · obtain ⟨fs, mark, rfl⟩ := h.dict hv
    refine ⟨_, rfl, ?_⟩
    rintro k rfl
    rw [given, SettingKey.defined?, hv]
    rfl

lemma items?_of_admits {k : SettingKey} (hk : k = .builtinTypes ∨ k = .enabledDialects)
    {v : Value} (h : k.Admits v) : v.items? = .ok v.elements := by
  rcases hk with rfl | rfl <;>
    · obtain ⟨xs, mark, rfl, -⟩ := h
      rfl

lemma toInt?_of_admits {v : Value} (h : SettingKey.workers.Admits v) :
    toInt? v = .ok (v.integer?.getD 0) := by
  obtain ⟨n, hn⟩ := h
  cases v with
  | bool b | int m => rfl
  | _ => cases hn

/-- The settings with values of the declared types. -/
def ofValues (value : SettingKey → Value) : Settings where
  resolver := {
    basePackage := value .basePackage
    builtinTypes := (value .builtinTypes).elements
    packageSeparator := value .packageSeparator
    wildcardMarker := value .wildcardMarker }
  dialects := { enabled := (value .enabledDialects).elements }
  pipeline := {
    workers := (value .workers).integer?.getD 0
    publishToMetadata := (value .publishToMetadata).truthy }
  display := { symbols := value .symbols, format := value .format }
  logging := { level := value .level }

lemma get_ofValues {value : SettingKey → Value} (h : ∀ k : SettingKey, k.Admits (value k))
    (k : SettingKey) : k.get (ofValues value) = k.taken (value k) := by
  cases k with
  | publishToMetadata =>
      obtain ⟨b, hb⟩ := h .publishToMetadata
      change Value.bool (value .publishToMetadata).truthy = value .publishToMetadata
      rw [hb]
      rfl
  | _ => rfl

/-- **The settings are read one by one**: each from what is defined for it, or it has its default. Of
two it is asked which members they have, of one which number it is. -/
lemma ofValue?_of_sectioned (h : Layer.Sectioned es) : ofValue? (.dict es) = (do
    let builtinTypes ← (given es .builtinTypes).items?
    let enabled ← (given es .enabledDialects).items?
    let workers ← toInt? (given es .workers)
    pure {
      resolver := {
        basePackage := given es .basePackage
        builtinTypes
        packageSeparator := given es .packageSeparator
        wildcardMarker := given es .wildcardMarker }
      dialects := { enabled }
      pipeline := { workers, publishToMetadata := (given es .publishToMetadata).truthy }
      display := { symbols := given es .symbols, format := given es .format }
      logging := { level := given es .level } }) := by
  obtain ⟨_, hresolver, hrs⟩ := exists_section h .resolver
  obtain ⟨_, hdialects, hds⟩ := exists_section h .dialects
  obtain ⟨_, hpipeline, hps⟩ := exists_section h .pipeline
  obtain ⟨_, hdisplay, hvs⟩ := exists_section h .display
  obtain ⟨_, hlogging, hls⟩ := exists_section h .logging
  rw [ofValue?]
  refine (Answer.bind_of_ok hresolver).trans <| (Answer.bind_of_ok hdialects).trans <|
    (Answer.bind_of_ok hpipeline).trans <| (Answer.bind_of_ok hdisplay).trans <|
    (Answer.bind_of_ok hlogging).trans ?_
  -- each setting is looked up in its section
  refine (Answer.bind_of_ok (hrs .basePackage rfl)).trans <|
    (Answer.bind_of_ok (hrs .builtinTypes rfl)).trans <| bind_congr fun builtinTypes => ?_
  refine (Answer.bind_of_ok (hrs .packageSeparator rfl)).trans <|
    (Answer.bind_of_ok (hrs .wildcardMarker rfl)).trans <|
    (Answer.bind_of_ok (hds .enabledDialects rfl)).trans <| bind_congr fun enabled => ?_
  refine (Answer.bind_of_ok (hps .workers rfl)).trans <| bind_congr fun workers => ?_
  exact (Answer.bind_of_ok (hps .publishToMetadata rfl)).trans <|
    (Answer.bind_of_ok (hvs .symbols rfl)).trans <|
    (Answer.bind_of_ok (hvs .format rfl)).trans <| Answer.bind_of_ok (hls .level rfl)

/-- Settings of their declared types are what is given. -/
lemma ofValue?_eq (h : Layer.WellTyped es) : ofValue? (.dict es) = .ok (ofValues (given es)) := by
  rw [ofValue?_of_sectioned h.sections, items?_of_admits (.inl rfl) (given_admits h _),
    items?_of_admits (.inr rfl) (given_admits h _), toInt?_of_admits (given_admits h _)]
  rfl

end Settings

/-! ### The environment -/

namespace Value

variable {object : Mark} {l v w : Value} {around : List Mark} {es : Entries} {s : String}

lemma redefineAll_of_texts {xs : List Value} (h : ∀ x ∈ xs, x.isText) :
    redefineAll object l v around xs = xs := by
  induction xs with
  | nil => rw [redefineAll]
  | cons x xs ih =>
      rw [List.forall_mem_cons] at h
      obtain ⟨s, rfl⟩ := isText_iff.mp h.1
      rw [redefineAll, ih h.2]
      congr 1

/-- A setting holds no object that could change. -/
lemma redefine_of_admits {k : SettingKey} (h : k.Admits w) : redefine object l v around w = w := by
  cases k with
  | builtinTypes | enabledDialects =>
      obtain ⟨xs, mark, rfl, hxs⟩ := h
      rw [redefine]
      split
      · rfl
      · rw [redefineAll_of_texts hxs]
  | workers =>
      obtain ⟨n, hn⟩ := h
      cases w with
      | bool b | int m => rw [redefine] <;> nofun
      | _ => cases hn
  | publishToMetadata =>
      obtain ⟨b, rfl⟩ := h
      rw [redefine] <;> nofun
  | _ =>
      obtain ⟨s, rfl⟩ := h
      rw [redefine] <;> nofun

lemma lookup?_redefineEntries : lookup? (redefineEntries object l v around es) (.text s) =
    (lookup? es (.text s)).map (redefine object l v around) := by
  induction es with
  | nil => rw [redefineEntries]; rfl
  | cons e es ih =>
      obtain ⟨m, w⟩ := e
      rw [redefineEntries]
      by_cases hm : m = .text s
      · subst hm
        rw [lookup?_cons_self, lookup?_cons_self]
        rfl
      · rw [lookup?_cons_other hm, lookup?_cons_other hm, ih]

lemma isMapping_redefine : (redefine object l v around w).isMapping = w.isMapping := by
  cases w with
  | list _ _ | tuple _ _ | dict _ _ =>
      rw [redefine]
      split <;> rfl
  | _ => rw [redefine] <;> nofun

/-- A section after the change of one object: the entry is new if the section is that object. -/
lemma redefine_dict (es : Entries) (mark : Option Mark) :
    redefine object l v [] (.dict es mark) =
      .dict (if mark == some object then put (redefineEntries object l v mark.toList es) l v
        else redefineEntries object l v mark.toList es) mark := by
  have hno : (mark.any ([] : List Mark).contains) = false := by cases mark <;> rfl
  rw [redefine, hno]
  simp

end Value

namespace Override

variable {o : Override} {v : Value} {data : Entries} {env : Environment}

/-- The value that a variable of the environment gives its setting. -/
def value? (env : Environment) (o : Override) : Option Value := (o.raw? env).bind o.key.parse?

/-- The warning about a variable whose text stands for no value. -/
def warning? (env : Environment) (o : Override) : Option LogLine :=
  (o.raw? env).bind fun raw => if (o.key.parse? raw).isNone then some (o.warning raw) else none

/-- What a text stands for is of the declared type. -/
lemma admits_of_parse? {k : SettingKey} {raw : String} (h : k.parse? raw = some v) :
    k.Admits v := by
  have htexts : ∀ ss : List String, ∀ x ∈ textValues ss, x.isText := fun ss x hx => by
    obtain ⟨s, -, rfl⟩ := List.mem_map.mp hx
    rfl
  cases k with
  | builtinTypes | enabledDialects =>
      cases h
      exact ⟨_, none, rfl, htexts _⟩
  | workers =>
      obtain ⟨n, -, rfl⟩ := Option.map_eq_some_iff.mp h
      exact ⟨n, rfl⟩
  | _ =>
      cases h
      exact ⟨_, rfl⟩

/-- Entries in which one setting has a value and all others are as before. -/
structure Defines (k : SettingKey) (v : Value) (data data' : Entries) : Prop where
  wellTyped : Layer.WellTyped data'
  defined : ∀ l : SettingKey, l.defined? data' = if l = k then some v else l.defined? data

lemma field?_put_home (k : SettingKey) (g : SettingsSection) (w : Value) :
    field? (put data (.text k.home.label) w) g.label =
      if g = k.home then some w else field? data g.label := by
  split
  · next hg =>
      subst hg
      exact Value.lookup?_put_self _ _ _
  · next hg =>
      refine Value.lookup?_put_other fun heq => hg ?_
      exact (SettingKey.home_label_injective (Value.text_injective heq)).symm

lemma field?_put_label (k l : SettingKey) (es : Entries) :
    field? (put es (.text k.label) v) l.label = if l = k then some v else field? es l.label := by
  split
  · next hl =>
      subst hl
      exact Value.lookup?_put_self _ _ _
  · next hl =>
      refine Value.lookup?_put_other fun heq => hl ?_
      exact (SettingKey.label_injective (Value.text_injective heq)).symm

/-- Entries whose sections are mappings, and in which one setting has a value of its type. -/
lemma Defines.of_defined {k : SettingKey} {data' : Entries} (h : Layer.WellTyped data)
    (hv : k.Admits v) (hsections : Layer.Sectioned data')
    (hdefined : ∀ l : SettingKey, l.defined? data' = if l = k then some v else l.defined? data) :
    Defines k v data data' where
  defined := hdefined
  wellTyped := by
    refine ⟨hsections, fun l w hw => ?_⟩
    rw [hdefined] at hw
    split at hw
    · next hl =>
        cases hw
        exact hl ▸ hv
    · exact h.settings l w hw

/-- A section of its own, which may be missing, gets the entry. -/
lemma defined?_put_home {k : SettingKey} {es : Entries}
    (hes : (field? data k.home.label).getD (.dict []) = .dict es none) (l : SettingKey) :
    l.defined? (put data (.text k.home.label) (.dict (put es (.text k.label) v))) =
      if l = k then some v else l.defined? data := by
  rw [SettingKey.defined?, field?_put_home]
  by_cases hhome : l.home = k.home
  · rw [if_pos hhome]
    change field? (put es (.text k.label) v) l.label = _
    rw [field?_put_label, SettingKey.defined?, hhome]
    rcases hold : field? data k.home.label with _ | w <;> rw [hold] at hes
    · cases hes
      rfl
    · rw [Option.getD_some] at hes
      subst hes
      rfl
  · have hne : l ≠ k := fun heq => hhome (congrArg SettingKey.home heq)
    rw [if_neg hhome, if_neg hne]
    rfl

lemma field?_redefineEntries {k : SettingKey} {object : Mark} (g : SettingsSection) :
    field? (Value.redefineEntries object (.text k.label) v [] data) g.label =
      (field? data g.label).map (Value.redefine object (.text k.label) v []) :=
  Value.lookup?_redefineEntries

/-- An object gets the entry at every section that it is; of the settings in them, only the one
meant has this name. The others are as before, unless they hold the object. -/
lemma defined?_redefineEntries {k : SettingKey} (h : Layer.Sectioned data) {es : Entries}
    {object : Mark} (hes : field? data k.home.label = some (.dict es (some object)))
    (l : SettingKey) : ∃ around,
    l.defined? (Value.redefineEntries object (.text k.label) v [] data) =
      if l = k then some v
      else (l.defined? data).map (Value.redefine object (.text k.label) v around) := by
  rw [SettingKey.defined?, field?_redefineEntries]
  rcases hold : field? data l.home.label with _ | old
  · have hne : l ≠ k := by
      rintro rfl
      rw [hes] at hold
      cases hold
    refine ⟨[], ?_⟩
    rw [if_neg hne, SettingKey.defined?, hold]
    rfl
  · obtain ⟨fs, mark, rfl⟩ := h.dict hold
    refine ⟨mark.toList, ?_⟩
    have hkept : field? (Value.redefineEntries object (.text k.label) v mark.toList fs) l.label =
        (l.defined? data).map (Value.redefine object (.text k.label) v mark.toList) := by
      rw [field?, Value.lookup?_redefineEntries, SettingKey.defined?, hold]
      rfl
    rw [Option.map_some, Value.redefine_dict, Option.bind_some]
    by_cases hmark : mark = some object
    · rw [if_pos (by simpa using hmark)]
      change field? (put _ (.text k.label) v) l.label = _
      rw [field?_put_label, hkept]
    · have hne : l ≠ k := by
        rintro rfl
        rw [hes] at hold
        cases hold
        exact hmark rfl
      rw [if_neg (by simpa using hmark), if_neg hne]
      exact hkept

/-- What becomes of entries: the section of the setting is one of its own or may be missing, or it
is an object that may stand at several places, or it is no mapping. -/
lemma define_cases (o : Override) (v : Value) (data : Entries) :
    (∃ es, (field? data o.key.home.label).getD (.dict []) = .dict es none ∧
      o.define v data = .ok (put data (.text o.key.home.label)
        (.dict (put es (.text o.key.label) v)))) ∨
    (∃ es object, field? data o.key.home.label = some (.dict es (some object)) ∧
      o.define v data = .ok (Value.redefineEntries object (.text o.key.label) v [] data)) ∨
    ∃ w, field? data o.key.home.label = some w ∧ w.isMapping = false ∧
      o.define v data = .error .illTyped := by
  rw [define]
  rcases hold : field? data o.key.home.label with _ | w
  · have hlookup : lookup? data (.text o.key.home.label) = none := hold
    simp only [hlookup, Option.getD_none]
    exact .inl ⟨_, rfl, rfl⟩
  · have hlookup : lookup? data (.text o.key.home.label) = some w := hold
    simp only [hlookup, Option.getD_some]
    cases w with
    | dict es mark =>
        rcases mark with _ | object
        · exact .inl ⟨_, rfl, rfl⟩
        · exact .inr (.inl ⟨_, _, rfl, rfl⟩)
    | _ => exact .inr (.inr ⟨_, rfl, rfl, rfl⟩)

/-- The same sections are mappings after the change. -/
lemma sectioned_define_iff {data' : Entries} (hdefine : o.define v data = .ok data') :
    Layer.Sectioned data' ↔ Layer.Sectioned data := by
  refine forall_congr' fun g => ?_
  rcases define_cases o v data with ⟨es, hes, heq⟩ | ⟨es, object, -, heq⟩ | ⟨_, -, -, heq⟩ <;>
    cases hdefine.symm.trans heq
  · rw [field?_put_home]
    split
    · next hg =>
        subst hg
        rcases hold : field? data o.key.home.label with _ | w
        · simp [Value.isMapping, Value.entries?]
        · rw [hold, Option.getD_some] at hes
          subst hes
          simp [Value.isMapping, Value.entries?]
    · rfl
  · rw [field?_redefineEntries]
    rcases field? data g.label with _ | w
    · simp
    · simp [Value.isMapping_redefine]

/-- **A variable of the environment defines its own setting and no other.** -/
lemma define_spec (h : Layer.WellTyped data) (hv : o.key.Admits v) :
    ∃ data', o.define v data = .ok data' ∧ Defines o.key v data data' := by
  rcases define_cases o v data with ⟨es, hes, heq⟩ | ⟨es, object, hes, heq⟩ | ⟨w, hw, hno, -⟩
  · exact ⟨_, heq, .of_defined h hv ((sectioned_define_iff heq).mpr h.sections)
      (defined?_put_home hes)⟩
  · refine ⟨_, heq, .of_defined h hv ((sectioned_define_iff heq).mpr h.sections) fun l => ?_⟩
    obtain ⟨around, hdefined⟩ := defined?_redefineEntries (v := v) h.sections hes l
    rw [hdefined]
    rcases hold : l.defined? data with _ | w
    · rfl
    · rw [Option.map_some, Value.redefine_of_admits (h.settings l w hold)]
  · rw [h.sections _ w hw] at hno
    cases hno

/-- The value that the first of several variables for a setting gives it. -/
def valueIn? (os : List Override) (env : Environment) (k : SettingKey) : Option Value :=
  os.findSome? fun o => if o.key = k then o.value? env else none

lemma valueIn?_cons (o : Override) (os : List Override) (env : Environment) (k : SettingKey) :
    valueIn? (o :: os) env k =
      (if o.key = k then o.value? env else none).or (valueIn? os env k) := by
  rw [valueIn?, List.findSome?_cons]
  cases if o.key = k then o.value? env else none <;> rfl

lemma valueIn?_eq_none {os : List Override} {k : SettingKey} (h : k ∉ os.map (·.key)) :
    valueIn? os env k = none := by
  refine List.findSome?_eq_none_iff.mpr fun o ho => if_neg ?_
  exact fun heq => h (List.mem_map.mpr ⟨o, ho, heq⟩)

/-- A variable of a setting of its own can as well be looked at last. -/
lemma valueIn?_cons_of_new {o : Override} {os : List Override} (h : o.key ∉ os.map (·.key))
    (k : SettingKey) : valueIn? (o :: os) env k =
      (valueIn? os env k).or (if o.key = k then o.value? env else none) := by
  rw [valueIn?_cons]
  by_cases hk : o.key = k
  · rw [valueIn?_eq_none (hk ▸ h), Option.none_or, Option.or_none]
  · rw [if_neg hk, Option.none_or, Option.or_none]

section Apply

variable {σ : Type} {s : σ}

/-- One variable: it gives its setting a value, or is not set, or is warned about. -/
lemma apply_yields (h : Layer.WellTyped data) : ∃ data',
    (apply env data o : Step σ Entries).Yields s (.ok data') s (o.warning? env).toList ∧
      Layer.WellTyped data' ∧
      ∀ l : SettingKey, l.defined? data' =
        (if o.key = l then o.value? env else none).or (l.defined? data) := by
  rw [apply, warning?, value?]
  rcases o.raw? env with _ | raw
  · exact ⟨data, Step.yields_pure data, h, fun l => by simp⟩
  · rcases hparse : o.key.parse? raw with _ | v
    · refine ⟨data, ?_, h, fun l => by simp [hparse]⟩
      simp only [Option.bind_some, hparse, Option.isNone_none, if_true]
      exact (Step.yields_log _).bind (Step.yields_pure data)
    · obtain ⟨data', hdefine, hdefines⟩ := define_spec h (admits_of_parse? hparse)
      refine ⟨data', ?_, hdefines.wellTyped, fun l => ?_⟩
      · simp only [Option.bind_some, hparse, Option.isNone_some, Bool.false_eq_true, if_false,
          hdefine]
        exact Step.yields_ofAnswer (.ok data')
      · rw [hdefines.defined, Option.bind_some, hparse]
        by_cases hl : o.key = l
        · rw [if_pos hl, if_pos hl.symm]
          rfl
        · rw [if_neg hl, if_neg (Ne.symm hl)]
          rfl

/-- Several variables of different settings, one after another. -/
lemma foldlM_yields {os : List Override} (hos : (os.map (·.key)).Nodup)
    (h : Layer.WellTyped data) : ∃ data',
    (os.foldlM (apply env) data : Step σ Entries).Yields s (.ok data') s
        (os.filterMap (warning? env)) ∧
      Layer.WellTyped data' ∧
      ∀ l : SettingKey, l.defined? data' = (valueIn? os env l).or (l.defined? data) := by
  induction os generalizing data with
  | nil => exact ⟨data, Step.yields_pure data, h, fun l => by rw [valueIn?]; rfl⟩
  | cons o os ih =>
      obtain ⟨hnew, hos⟩ := List.nodup_cons.mp hos
      obtain ⟨middle, hone, hmiddle, hdefined⟩ : ∃ data',
          (apply env data o : Step σ Entries).Yields s (.ok data') s (o.warning? env).toList ∧ _ :=
        apply_yields h
      obtain ⟨data', hrest, hdata', hdefined'⟩ := ih hos hmiddle
      refine ⟨data', ?_, hdata', fun l => ?_⟩
      · have hlog : (o :: os).filterMap (warning? env) =
            (o.warning? env).toList ++ os.filterMap (warning? env) := by
          rw [List.filterMap_cons]
          cases o.warning? env <;> rfl
        rw [List.foldlM_cons, hlog]
        exact hone.bind hrest
      · rw [hdefined', hdefined, valueIn?_cons_of_new hnew, Option.or_assoc]

end Apply

end Override

/-! ### All layers -/

namespace Layer

/-- What the files of the user and of the project define together. -/
def together (user project : Layer) : Entries := merge (merge [] user.entries) project.entries

/-- The value of a setting that the environment gives it, or that entries define, or its default. -/
def inForce (env : Environment) (es : Entries) (k : SettingKey) : Value :=
  ((Override.valueIn? Override.all env k).or (k.defined? es)).getD (k.get {})

lemma inForce_admits {env : Environment} {es : Entries} (h : WellTyped es) (k : SettingKey) :
    k.Admits (inForce env es k) := by
  rw [inForce]
  rcases hvalue : (Override.valueIn? Override.all env k).or (k.defined? es) with _ | v
  · exact k.admits_default
  · rcases Option.or_eq_some_iff.mp hvalue with hv | ⟨-, hv⟩
    · obtain ⟨o, ho, hv⟩ := List.exists_of_findSome?_eq_some hv
      split at hv
      · next hkey =>
          obtain ⟨raw, -, hparse⟩ := Option.bind_eq_some_iff.mp hv
          exact hkey ▸ Override.admits_of_parse? hparse
      · cases hv
    · exact h.settings k v hv

/-- The project prevails over the user. -/
lemma inForce_together {env : Environment} {user project : Layer} (hwu : Orderly user.entries)
    (hwp : Orderly project.entries) {k : SettingKey} :
    inForce env (together user project) k =
      (((Override.valueIn? Override.all env k).or (k.defined? project.entries)).or
        (k.defined? user.entries)).getD (k.get {}) := by
  have hnone : k.defined? [] = none := rfl
  rw [inForce, together, defined?_merge hwp, defined?_merge hwu, hnone, Option.or_none,
    Option.or_assoc]

/-- The warnings about the files and the environment. -/
def warnings (env : Environment) (userFile projectFile : Path) (user project : Layer) :
    List LogLine :=
  (warning? userFile user).toList ++ (warning? projectFile project).toList ++
    Override.all.filterMap (Override.warning? env)

section Load

variable {σ : Type} {s : σ} {tree : FileTree} {env : Environment} {path userFile projectFile : Path}
  {user project layer : Layer} {e : Fault} {n : Nat}

lemma entriesAt_yields (h : read tree n path = .ok layer) :
    (entriesAt tree n path : Step σ Entries).Yields s (.ok layer.entries) s
      (warning? path layer).toList := by
  rw [entriesAt, h]
  refine (Step.yields_ofAnswer (.ok layer)).bind ?_
  rcases warning? path layer with _ | line
  · exact Step.yields_pure _
  · exact (Step.yields_log line).bind (Step.yields_pure _)

lemma entriesAt_yields_error (h : read tree n path = .error e) :
    (entriesAt tree n path : Step σ Entries).Yields s (.error e) s [] := by
  rw [entriesAt, h]
  exact (Step.yields_ofAnswer (.error e)).bind_error

/-- Both files can be read, and are laid over each other. -/
lemma load_yields (hu : read tree 0 userFile = .ok user)
    (hp : read tree 1 projectFile = .ok project)
    (hmeet : fieldsMeetAgain [] user.entries project.entries = false)
    (h : WellTyped (together user project)) :
    (load tree env userFile projectFile : Step σ Settings).Yields s
      (.ok (Settings.ofValues (inForce env (together user project)))) s
      (warnings env userFile projectFile user project) := by
  have hkeys : (Override.all.map (·.key)).Nodup := by decide
  obtain ⟨data, hfold, hdata, hdefined⟩ : ∃ data',
      (Override.all.foldlM (Override.apply env) (together user project) :
        Step σ Entries).Yields s (.ok data') s
          (Override.all.filterMap (Override.warning? env)) ∧ _ :=
    Override.foldlM_yields hkeys h
  have hgiven : Settings.given data = inForce env (together user project) := by
    funext k
    rw [Settings.given, hdefined, inForce]
  rw [load, warnings, List.append_assoc]
  refine (entriesAt_yields hu).bind ((entriesAt_yields hp).bind ?_)
  rw [hmeet, ← List.append_nil (List.filterMap _ _)]
  refine hfold.bind ?_
  rw [Settings.ofValue?_eq hdata, hgiven]
  exact Step.yields_ofAnswer _

/-- A file of the user that cannot be read ends it all. -/
lemma load_yields_user (hu : read tree 0 userFile = .error e) :
    (load tree env userFile projectFile : Step σ Settings).Yields s (.error e) s [] :=
  (entriesAt_yields_error hu).bind_error

/-- A file of the project that cannot be read ends it as well. -/
lemma load_yields_project (hu : read tree 0 userFile = .ok user)
    (hp : read tree 1 projectFile = .error e) :
    (load tree env userFile projectFile : Step σ Settings).Yields s (.error e) s
      (warning? userFile user).toList := by
  rw [← List.append_nil (Option.toList _)]
  exact (entriesAt_yields hu).bind (entriesAt_yields_error hp).bind_error

/-- Two files whose mappings meet again inside themselves cannot be laid over each other. -/
lemma load_yields_deep (hu : read tree 0 userFile = .ok user)
    (hp : read tree 1 projectFile = .ok project)
    (hmeet : fieldsMeetAgain [] user.entries project.entries = true) :
    (load tree env userFile projectFile : Step σ Settings).Yields s (.error .tooDeep) s
      ((warning? userFile user).toList ++ (warning? projectFile project).toList) := by
  refine (entriesAt_yields hu).bind ?_
  rw [← List.append_nil (Option.toList (warning? projectFile project))]
  refine (entriesAt_yields hp).bind ?_
  rw [hmeet]
  exact (Step.yields_throw .tooDeep).bind_error

end Load

end Layer

end Concordance

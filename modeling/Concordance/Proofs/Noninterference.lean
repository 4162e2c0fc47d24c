import Mathlib
import Concordance.Proofs.Acceptance
import Concordance.Proofs.OrderIndependence
import Concordance.Proofs.Publication

/-!
What a metadata bag holds under keys that no enabled dialect reads has no influence on a build.

* `Value.SameMembers`, `Value.SameEntries` : the same collection, and the same mapping, where sets
  and mappings have no order.
* `DialectSettings.SameBag` : two bags that hold the same under the keys of the enabled dialects;
  `ProcessDefinition.SameFor` : two processes that are equal but for the rest of their bags.
* `ProcessDefinition.SameFor.textual`, `.accepted`, `.alike`, `.completable`, `.completed_eq` : what
  one of two such processes is, holds and finds, the other does as well.
* `Build.collect_sameAnswer` : two such processes both cannot be built, or their indexes agree.
-/

namespace Concordance

/-! ### The same but for order -/

namespace Value

/-- The same collection: two sets with the same members in some order, or the same value. Which
object of a document a list or a tuple is makes no difference. -/
inductive SameMembers : Value → Value → Prop
  | refl (v : Value) : SameMembers v v
  | list (xs : List Value) (mark mark' : Option Mark) : SameMembers (.list xs mark) (.list xs mark')
  | tuple (xs : List Value) (mark mark' : Option Mark) :
      SameMembers (.tuple xs mark) (.tuple xs mark')
  | set (frozen : Bool) {xs ys : List Value} (mark mark' : Option Mark) (h : xs.Perm ys) :
      SameMembers (.set frozen xs mark) (.set frozen ys mark')

/-- The same mapping: one key has one value, and the entries stand in some order. -/
inductive SameEntries : Value → Value → Prop
  | refl (v : Value) : SameEntries v v
  | dict {es fs : List (Value × Value)} (mark mark' : Option Mark) (h : es.Perm fs)
      (hkeys : (es.map (·.1)).Nodup) : SameEntries (.dict es mark) (.dict fs mark')

section

variable {v w : Value}

namespace SameMembers

lemma symm (h : v.SameMembers w) : w.SameMembers v := by
  cases h with
  | refl => exact .refl v
  | list => exact .list _ _ _
  | tuple => exact .tuple _ _ _
  | set _ _ _ h => exact .set _ _ _ h.symm

lemma isSome_members? (h : v.SameMembers w) : v.members?.isSome = w.members?.isSome := by
  cases h <;> rfl

lemma perm_elements (h : v.SameMembers w) : v.elements.Perm w.elements := by
  cases h with
  | set _ _ _ h => exact h
  | _ => exact .rfl

lemma truthy_eq (h : v.SameMembers w) : v.truthy = w.truthy := by
  cases h with
  | set _ _ _ h => exact congrArg (!·) h.isEmpty_eq
  | _ => rfl

lemma iterable (h : v.SameMembers w) (hv : v.Iterable) : w.Iterable := by
  rw [Iterable, ← h.truthy_eq, ← h.isSome_members?]
  exact hv

lemma perm_distinct (h : v.SameMembers w) : v.distinct.Perm w.distinct := by
  cases h with
  | set _ _ _ h => exact h
  | _ => exact .rfl

/-- What one can be turned into a set, the other can as well. -/
lemma toSet? (h : v.SameMembers w) {P : Value → Prop}
    (hv : ∃ xs, v.toSet? = .ok xs ∧ ∀ x ∈ xs, P x) : ∃ xs, w.toSet? = .ok xs ∧ ∀ x ∈ xs, P x := by
  cases h with
  | @set _ xs ys _ _ h =>
      obtain ⟨_, hxs, hP⟩ := hv
      cases hxs
      exact ⟨ys, rfl, fun y hy => hP y (h.mem_iff.mpr hy)⟩
  | _ => exact hv

/-- What is a collection of texts is one in any order. -/
lemma isNames (h : v.SameMembers w) (hv : v = .null ∨ v.IsNames) : w = .null ∨ w.IsNames := by
  cases h with
  | refl => exact hv
  | set _ _ _ h =>
      obtain ⟨-, -, xs, hxs, htexts⟩ := hv.resolve_left nofun
      cases hxs
      exact .inr ⟨rfl, nofun, _, rfl, fun x hx => htexts x (h.mem_iff.mpr hx)⟩
  | _ =>
      obtain ⟨-, -, hmembers⟩ := hv.resolve_left nofun
      exact .inr ⟨rfl, nofun, hmembers⟩

end SameMembers

/-- Under a key that equals no other, a mapping holds the same in any order. -/
lemma lookup?_perm {es fs : List (Value × Value)} {k : Value} (h : es.Perm fs)
    (hkeys : (es.map (·.1)).Nodup) (hk : ∀ e ∈ es, e.1.same k = true → e.1 = k) :
    lookup? es k = lookup? fs k := by
  unfold lookup?
  induction h with
  | nil => rfl
  | @cons e es fs h ih =>
      rw [List.map_cons, List.nodup_cons] at hkeys
      simp only [List.find?_cons]
      split
      · rfl
      · exact ih hkeys.2 fun a ha => hk a (by simp [ha])
  | swap a b es =>
      simp only [List.find?_cons]
      rcases ha : a.1.same k with _ | _ <;> rcases hb : b.1.same k with _ | _ <;> try rfl
      -- both keys would be the one that is asked for
      have hab : b.1 = a.1 := (hk b (by simp) hb).trans (hk a (by simp) ha).symm
      simp [hab] at hkeys
  | trans h h' ih ih' =>
      refine (ih hkeys hk).trans (ih' ((h.map _).nodup_iff.mp hkeys) fun e he => ?_)
      exact hk e (h.mem_iff.mpr he)

namespace SameEntries

lemma symm (h : v.SameEntries w) : w.SameEntries v := by
  cases h with
  | refl => exact .refl v
  | dict _ _ h hkeys => exact .dict _ _ h.symm ((h.map _).nodup_iff.mp hkeys)

lemma truthy_eq (h : v.SameEntries w) : v.truthy = w.truthy := by
  cases h with
  | refl => rfl
  | dict _ _ h _ => exact congrArg (!·) h.isEmpty_eq

lemma mappable (h : v.SameEntries w) (hv : v.Mappable) : w.Mappable := by
  cases h with
  | refl => exact hv
  | dict => exact fun _ => rfl

lemma mem_fields (h : v.SameEntries w) (e : Value × Value) : e ∈ v.fields ↔ e ∈ w.fields := by
  cases h with
  | refl => rfl
  | dict _ _ h _ => exact h.mem_iff

/-- What one can be turned into a mapping, the other can as well. -/
lemma entriesOf? (h : v.SameEntries w) {P : Value × Value → Prop}
    (hv : ∃ es, v.entriesOf? = .ok es ∧ ∀ e ∈ es, P e) :
    ∃ es, w.entriesOf? = .ok es ∧ ∀ e ∈ es, P e := by
  cases h with
  | refl => exact hv
  | @dict es fs _ _ h _ =>
      obtain ⟨_, hes, hP⟩ := hv
      cases hes
      exact ⟨fs, rfl, fun e he => hP e (h.mem_iff.mpr he)⟩

lemma perm_pairs (h : v.SameEntries w) : v.pairs.Perm w.pairs := by
  cases h with
  | refl => exact .rfl
  | dict _ _ h _ => exact h

/-- The mappings that both can be turned into are the same, if all keys are texts. -/
lemma sameMapping_pairs (h : v.SameEntries w) (htexts : ∀ e ∈ v.pairs, e.1.isText) :
    SameMapping v.pairs w.pairs := by
  cases h with
  | refl => exact ⟨fun _ => .rfl, fun _ => rfl⟩
  | dict _ _ h hkeys =>
      refine ⟨fun _ => h.mem_iff, fun k => lookup?_perm h hkeys fun e he hsame => ?_⟩
      obtain ⟨s, hs⟩ := Value.isText_iff.mp (htexts e he)
      rw [hs, Value.same_text_left] at hsame
      rw [hs, hsame]

/-- Under a textual key both mappings hold the same. -/
lemma get?_text (h : v.SameEntries w) (s : String) : v.get? (.text s) = w.get? (.text s) := by
  cases h with
  | refl => rfl
  | dict _ _ h hkeys =>
      have hlookup := lookup?_perm (k := .text s) h hkeys fun _ _ => Value.same_text_right.mp
      rw [get?_dict, get?_dict, hlookup]

/-- What is a collection of texts is one in any order. -/
lemma isNames (h : v.SameEntries w) (hv : v = .null ∨ v.IsNames) : w = .null ∨ w.IsNames := by
  cases h with
  | refl => exact hv
  | dict _ _ h _ =>
      obtain ⟨-, -, xs, hxs, htexts⟩ := hv.resolve_left nofun
      cases hxs
      exact .inr ⟨rfl, nofun, _, rfl, fun x hx => htexts x ((h.map _).mem_iff.mpr hx)⟩

lemma perm_elements (h : v.SameEntries w) : v.elements.Perm w.elements := by
  cases h with
  | refl => exact .rfl
  | dict _ _ h _ => exact h.map _

end SameEntries

end

/-- The same value, or the same variable with the same metadata. -/
inductive SameVar : Value → Value → Prop
  | refl (v : Value) : SameVar v v
  | var (name type : Value) {m m' : Value} (h : m.SameEntries m') :
      SameVar (.var name type m) (.var name type m')

/-- Two collections of the same variables, in any order and repetition. -/
structure SameVars (v w : Value) : Prop where
  isSome_members? : v.members?.isSome = w.members?.isSome
  left : ∀ x ∈ v.elements, ∃ y ∈ w.elements, x.SameVar y
  right : ∀ y ∈ w.elements, ∃ x ∈ v.elements, x.SameVar y

lemma SameVar.symm {v w : Value} (h : v.SameVar w) : w.SameVar v := by
  cases h with
  | refl => exact .refl v
  | var n t h => exact .var n t h.symm

lemma SameVars.symm {v w : Value} (h : v.SameVars w) : w.SameVars v where
  isSome_members? := h.isSome_members?.symm
  left := fun y hy => (h.right y hy).imp fun _ ⟨hx, hxy⟩ => ⟨hx, hxy.symm⟩
  right := fun x hx => (h.left x hx).imp fun _ ⟨hy, hxy⟩ => ⟨hy, hxy.symm⟩

end Value

/-- Two bags that hold the same under the keys of the dialects that are enabled. -/
structure DialectSettings.SameBag (s : DialectSettings) (m m' : Value) : Prop where
  isMapping : m.isMapping = m'.isMapping
  held : ∀ c ∈ builtinDialects, .text c.name ∈ s.enabled → ∀ k ∈ c.keys, ∀ v w,
    m.get? (.text k) = .ok v → m'.get? (.text k) = .ok w → v.SameMembers w ∨ v.SameEntries w

/-- Two processes that are equal but for what their bags hold under keys that no enabled dialect
reads. -/
structure ProcessDefinition.SameFor (s : DialectSettings) (p q : ProcessDefinition) : Prop where
  id : p.id = q.id
  name : p.name = q.name
  metadata : s.SameBag p.metadata q.metadata
  globals : p.globals.SameEntries q.globals
  imports : p.imports.SameMembers q.imports
  functionImports : p.functionImports.SameMembers q.functionImports
  nodes : p.nodes.SameMembers q.nodes
  vars : p.vars.SameVars q.vars
  itemDefinitions : p.itemDefinitions.SameEntries q.itemDefinitions
  signals : p.signals.SameMembers q.signals
  messages : p.messages.SameEntries q.messages

/-! ### Bags -/

namespace DialectSettings.SameBag

variable {s : DialectSettings} {m m' : Value}

lemma symm (h : s.SameBag m m') : s.SameBag m' m where
  isMapping := h.isMapping.symm
  held := fun c hc henabled k hk v w hv hw =>
    (h.held c hc henabled k hk w v hw hv).imp Value.SameMembers.symm Value.SameEntries.symm

/-- A bag can be asked for a key if the other can. -/
lemma exists_get? (h : s.SameBag m m') {k : String} {v : Value} (hv : m.get? (.text k) = .ok v) :
    ∃ w, m'.get? (.text k) = .ok w := by
  rw [Value.exists_get?_iff, ← h.isMapping, ← Value.exists_get?_iff (k := k)]
  exact ⟨v, hv⟩

variable {c : Contributor} (hc : c ∈ builtinDialects) (henabled : .text c.name ∈ s.enabled)
include hc henabled

/-- An enabled dialect that can read one bag can read the other. -/
lemma contribute (h : s.SameBag m m') (hok : ∃ pair, c.contribute m = .ok pair) :
    ∃ pair, c.contribute m' = .ok pair := by
  rw [Contributor.contribute_ok_iff] at hok ⊢
  intro k hk
  obtain ⟨v, hv, hnames⟩ := hok k hk
  obtain ⟨w, hw⟩ := h.exists_get? hv
  refine ⟨w, hw, ?_⟩
  rcases h.held c hc henabled k hk v w hv hw with hvw | hvw
  · exact hvw.isNames hnames
  · exact hvw.isNames hnames

/-- An enabled dialect finds the same names under each of its keys. -/
lemma namesUnder_subset (h : s.SameBag m m') {key : Option String}
    (hkey : ∀ k, key = some k → k ∈ c.keys) : m.namesUnder key ⊆ m'.namesUnder key := by
  rintro n ⟨k, hk, v, hv, hn⟩
  obtain ⟨w, hw⟩ := h.exists_get? hv
  refine ⟨k, hk, w, hw, ?_⟩
  rcases h.held c hc henabled k (hkey k hk) v w hv hw with hvw | hvw
  · exact hvw.perm_elements.mem_iff.mp hn
  · exact hvw.perm_elements.mem_iff.mp hn

end DialectSettings.SameBag

/-! ### What is read of the same processes -/

namespace ProcessDefinition.SameFor

variable {s : DialectSettings} {p q : ProcessDefinition}

lemma symm (h : SameFor s p q) : SameFor s q p where
  id := h.id.symm
  name := h.name.symm
  metadata := h.metadata.symm
  globals := h.globals.symm
  imports := h.imports.symm
  functionImports := h.functionImports.symm
  nodes := h.nodes.symm
  vars := h.vars.symm
  itemDefinitions := h.itemDefinitions.symm
  signals := h.signals.symm
  messages := h.messages.symm

/-- Two processes that differ in their bags alone. -/
lemma of_bag {m : Value} (h : s.SameBag p.metadata m) : SameFor s p { p with metadata := m } where
  id := rfl
  name := rfl
  metadata := h
  globals := .refl _
  imports := .refl _
  functionImports := .refl _
  nodes := .refl _
  vars := ⟨rfl, fun x hx => ⟨x, hx, .refl x⟩, fun x hx => ⟨x, hx, .refl x⟩⟩
  itemDefinitions := .refl _
  signals := .refl _
  messages := .refl _

/-- The names of both are texts. -/
lemma textual (h : SameFor s p q) (hp : p.Textual) : q.Textual where
  id := h.id ▸ hp.id
  name := h.name ▸ hp.name
  globals := fun e he => hp.globals e ((h.globals.mem_fields e).mpr he)
  imports := fun v hv => hp.imports v (h.imports.perm_elements.mem_iff.mpr hv)
  functions := fun v hv => hp.functions v (h.functionImports.perm_elements.mem_iff.mpr hv)
  nodes := fun v hv => hp.nodes v (h.nodes.perm_elements.mem_iff.mpr hv)
  vars := fun n t m hv => by
    obtain ⟨v, hv, hvar⟩ := h.vars.right _ hv
    cases hvar with
    | refl => exact hp.vars n t m hv
    | var => exact hp.vars n t _ hv
  items := fun k i t he => hp.items k i t (h.itemDefinitions.perm_pairs.mem_iff.mpr he)

/-- A compiler that can read one can read the other. -/
lemma accepted (h : SameFor s p q) (hp : p.Accepted) : q.Accepted := by
  obtain ⟨hnodes, ⟨hvars, hvar⟩, hitems, hsignals, hmessages⟩ := accepted_iff.mp hp
  refine accepted_iff.mpr ⟨?_, ⟨?_, fun w hw => ?_⟩, fun hq => ?_, fun hq => ?_, fun hq => ?_⟩
  · rw [← h.nodes.isSome_members?]
    exact hnodes
  · rw [← h.vars.isSome_members?]
    exact hvars
  · obtain ⟨v, hv, hvw⟩ := h.vars.right w hw
    cases hvw with
    | refl => exact hvar w hv
    | var n t _ => exact ⟨n, t, _, rfl⟩
  · exact h.itemDefinitions.entriesOf? (hitems (h.itemDefinitions.truthy_eq ▸ hq))
  · exact h.signals.toSet? (hsignals (h.signals.truthy_eq ▸ hq))
  · exact h.messages.entriesOf? (hmessages (h.messages.truthy_eq ▸ hq))

/-- Both deliver the same nodes. -/
lemma heardFindings_eq (h : SameFor s p q) :
    Build.heardFindings p.observations = Build.heardFindings q.observations := by
  simp only [Build.heardFindings, nodes_eq, h.nodes.perm_elements.mem_iff]

/-- Both declare the same variables. -/
lemma exists_declared (h : SameFor s p q) {v : Variable} (hv : v ∈ p.declared) :
    ∃ w ∈ q.declared, v.Alike w := by
  obtain ⟨x, hx, hxv⟩ := List.mem_filterMap.mp hv
  obtain ⟨y, hy, hxy⟩ := h.vars.left x hx
  cases hxy with
  | refl => exact ⟨v, List.mem_filterMap.mpr ⟨x, hy, hxv⟩, rfl, rfl, rfl⟩
  | @var n t m m' hm =>
      cases hxv
      exact ⟨_, List.mem_filterMap.mpr ⟨_, hy, rfl⟩, rfl, rfl, hm.get?_text _⟩

section Builds

variable {r : Resolver} {d : DialectRegistry} {w : Value}

/-- Builds that have heard both hold the same. -/
lemma alike (h : SameFor s p q) (hp : p.Textual) (haccepted : p.Accepted) :
    (Build.replayed p r d w).Alike (Build.replayed q r d w) := by
  have hq := h.textual hp
  have hpholds := Build.holds_hear (r := r) (d := d) (w := w) hp haccepted.decodes
  have hqholds := Build.holds_hear (r := r) (d := d) (w := w) hq (h.accepted haccepted).decodes
  obtain ⟨hpr, hpd, hpw, -⟩ := Build.replayed_settings (r := r) (d := d) (w := w) hp
  obtain ⟨hqr, hqd, hqw, -⟩ := Build.replayed_settings (r := r) (d := d) (w := w) hq
  have hmessages := h.messages.perm_pairs
  refine ⟨hpr.trans hqr.symm, hpd.trans hqd.symm, hpw.trans hqw.symm, ?_, ?_, fun n => ?_,
    fun n => ?_⟩
  · rw [Build.replayed, Build.replayed, hpholds.vars, hqholds.vars]
    exact ⟨fun v hv => h.exists_declared hv, fun v hv => h.symm.exists_declared hv⟩
  · rw [Build.replayed, Build.replayed, hpholds.items, hqholds.items]
    exact h.itemDefinitions.sameMapping_pairs haccepted.items_texts
  · rw [Build.replayed, Build.replayed, hpholds.signals, hqholds.signals]
    exact h.signals.perm_distinct.mem_iff
  · rw [Build.replayed, Build.replayed, hpholds.messages, hqholds.messages, mem_keyTexts,
      mem_keyTexts]
    simp only [hmessages.mem_iff]

variable {b : Build} {F : Set Finding}

lemma read_eq (h : SameFor s p q) : b.read p = b.read q := by
  simp only [Build.read, Build.globalFindings, Build.importFindings, h.globals.mem_fields,
    h.imports.perm_elements.mem_iff]

lemma closing_eq (h : SameFor s p q) : b.closing p = b.closing q := by
  simp only [Build.closing, Build.functionFindings, h.functionImports.perm_elements.mem_iff]

lemma readable (h : SameFor s p q) (hb : b.Readable p) : b.Readable q := by
  obtain ⟨hitems, ⟨hmappable, hglobals⟩, hiterable, himports⟩ := hb
  exact ⟨hitems, ⟨h.globals.mappable hmappable, fun e he => hglobals e
    ((h.globals.mem_fields e).mpr he)⟩, h.imports.iterable hiterable, fun v hv => himports v
    (h.imports.perm_elements.mem_iff.mpr hv)⟩

lemma closable (h : SameFor s p q) (hb : b.Closable p) : b.Closable q :=
  ⟨h.functionImports.iterable hb.1, fun v hv => hb.2 v
    (h.functionImports.perm_elements.mem_iff.mpr hv)⟩

section Dialects

variable (hd : s.createRegistry = .ok b.dialects)
include hd

lemma tellable (h : SameFor s p q) (hb : b.Tellable p) : b.Tellable q := by
  refine ⟨fun c hc => ?_, hb.2⟩
  obtain ⟨hbuiltin, henabled⟩ := (DialectRegistry.mem_contributors hd c).mp hc
  exact h.metadata.contribute hbuiltin henabled (hb.1 c hc)

lemma told_subset (h : SameFor s p q) : b.told p ⊆ b.told q := by
  refine Set.union_subset_union_left _ ?_
  rintro f ⟨c, hc, pair, hpair, hf⟩
  obtain ⟨hbuiltin, henabled⟩ := (DialectRegistry.mem_contributors hd c).mp hc
  obtain ⟨pair', hpair'⟩ := h.metadata.contribute hbuiltin henabled ⟨pair, hpair⟩
  refine ⟨c, hc, pair', hpair', hf.imp ?_ ?_⟩
  · rintro ⟨n, hn, rfl⟩
    refine ⟨n, (Contributor.mem_contribute hpair' n).1.mpr ?_, rfl⟩
    exact h.metadata.namesUnder_subset hbuiltin henabled
      (fun k hk => Contributor.mem_keys.mpr (.inl hk))
      ((Contributor.mem_contribute hpair n).1.mp hn)
  · rintro ⟨n, hn, rfl⟩
    refine ⟨n, (Contributor.mem_contribute hpair' n).2.mpr ?_, rfl⟩
    exact h.metadata.namesUnder_subset hbuiltin henabled
      (fun k hk => Contributor.mem_keys.mpr (.inr hk))
      ((Contributor.mem_contribute hpair n).2.mp hn)

lemma told_eq (h : SameFor s p q) : b.told p = b.told q :=
  (h.told_subset hd).antisymm (h.symm.told_subset hd)

/-- A build finds the same of both. -/
lemma completed_eq (h : SameFor s p q) : b.completed p F = b.completed q F := by
  rw [Build.completed, Build.completed, h.read_eq, h.told_eq hd, h.closing_eq]

/-- A build that can be completed for one can be completed for the other. -/
lemma completable (h : SameFor s p q) (hb : b.Completable p F) : b.Completable q F := by
  obtain ⟨hread, htell, hresolves, hclose⟩ := hb
  rw [h.read_eq, h.told_eq hd] at hresolves
  exact ⟨h.readable hread, h.tellable hd htell, hresolves, h.closable hclose⟩

end Dialects

end Builds

end ProcessDefinition.SameFor

/-! ### Whole builds -/

/-- Two attempts to make an index that both failed, or of which the indexes agree. -/
inductive Index.SameAnswer : Answer Index → Answer Index → Prop
  | failed (e f : Fault) : SameAnswer (.error e) (.error f)
  | agree {i j : Index} (h : i.Agree j) : SameAnswer (.ok i) (.ok j)

/-- An index shows the same of two processes with one id and one name. -/
lemma Index.Shows.congr {p q : ProcessDefinition} {F : Set Finding} {i : Index}
    (h : i.Shows p F) (hid : p.id = q.id) (hname : p.name = q.name) : i.Shows q F where
  processId := h.processId.trans hid
  processName := h.processName.trans hname
  resources := by
    obtain ⟨parts, hresources, hparts⟩ := h.resources
    exact ⟨parts, by rw [hresources, ProcessDefinition.resources, hid, hname]; rfl, hparts⟩
  shared := h.shared
  references := h.references
  classes := h.classes

namespace Build

variable {s : DialectSettings} {p q : ProcessDefinition} {r : Resolver} {d : DialectRegistry}
  {w : Value}

/-- A build succeeds for one of two processes that are the same for its dialects if it succeeds for
the other, and shows the same. -/
lemma ready_of_same (hp : p.Textual) (h : p.SameFor s q) (hd : s.createRegistry = .ok d)
    (hok : p.Accepted ∧ (replayed p r d w).Completable p (heardFindings p.observations)) :
    (q.Accepted ∧ (replayed q r d w).Completable q (heardFindings q.observations)) ∧
      (replayed q r d w).completed q (heardFindings q.observations) =
        (replayed p r d w).completed p (heardFindings p.observations) := by
  obtain ⟨haccepted, hcompletable⟩ := hok
  have halike := h.alike (r := r) (d := d) (w := w) hp haccepted
  obtain ⟨-, hdialects, -, -⟩ := replayed_settings (r := r) (d := d) (w := w) (h.textual hp)
  have hd' : s.createRegistry = .ok (replayed q r d w).dialects := by rw [hdialects, hd]
  rw [← h.heardFindings_eq]
  refine ⟨⟨h.accepted haccepted, h.completable hd' (halike.completable hcompletable)⟩, ?_⟩
  rw [← h.completed_eq hd', halike.completed_eq]

/-- **The rest of the bag has no influence**: two processes that are the same for the dialects of a
build both cannot be built, or their indexes agree. -/
theorem collect_sameAnswer (hp : p.Textual) (h : p.SameFor s q) (hd : s.createRegistry = .ok d) :
    Index.SameAnswer ((Pipeline.collect p).outcome (start r d w)).1
      ((Pipeline.collect q).outcome (start r d w)).1 := by
  have hq := h.textual hp
  have hpends := (collect_exact (r := r) (d := d) (w := w) hp).apply []
  have hqends := (collect_exact (r := r) (d := d) (w := w) hq).apply []
  rw [Step.outcome_eq, Step.outcome_eq]
  rcases hprun : (ExceptT.run (Pipeline.collect p) (start r d w) []).1 with ⟨e | i, b⟩ <;>
    rcases hqrun : (ExceptT.run (Pipeline.collect q) (start r d w) []).1 with ⟨f | j, c⟩ <;>
    rw [hprun] at hpends <;> rw [hqrun] at hqends
  · exact .failed e f
  · exact absurd (ready_of_same hq h.symm hd hqends.1).1 hpends
  · exact absurd (ready_of_same hp h hd hpends.1).1 hqends
  · obtain ⟨hok, hi⟩ := hpends
    obtain ⟨-, hj⟩ := hqends
    rw [(ready_of_same hp h hd hok).2] at hj
    exact .agree (hi.agree hp.id hp.name (hj.congr h.id.symm h.name.symm))

end Build

end Concordance

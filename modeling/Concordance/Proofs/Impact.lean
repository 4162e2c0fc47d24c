import Mathlib
import Concordance.CommandLine.Shell
import Concordance.Proofs.History
import Concordance.Proofs.Rendering
import Concordance.Proofs.Wording

/-!
Which processes a name has an impact on.

* `Mention` : a way in which a process mentions a name; `Index.Has` : it does so in this way.
  `Mention.label_injective`, `Text.items_joined` : ways can be told apart by how they are written,
  and read off a cell.
* `Registry.Textual r` : the registry holds indexes under textual ids, each of which is that of the
  index. `Registry.Textual.following` : so it is after every run of publications and removals.
* `Registry.Searches r name` : the queries for a name agree, with each other and with what is
  published. `Index.Describes` : a row tells of an index in which ways it mentions a name.
* `Shell.Indexed` : what indexing files leaves. `Shell.Concludes` : how the command ends after that:
  with a report of the registry as it is then, or with what was reported before.
* `Registry.impact_run` : all this holds after every run.
-/

namespace Concordance

/-! ### Lists in a cell -/

namespace Text

/-- The items of a list that is written with commas, without the blanks before them. -/
def items (s : String) : List String :=
  (pieces (· == ',') s.toList).map fun cs => String.ofList (cs.dropWhile (· == ' '))

/-- A text that can be told in a list: it has no comma and does not begin with a blank. -/
def IsItem (s : String) : Prop :=
  (∀ c ∈ s.toList, (c == ',') = false) ∧ s.toList.dropWhile (· == ' ') = s.toList

/-- **What was written is read**: the items of a list that is written with commas. -/
lemma items_joined {xs : List String} (hne : xs ≠ []) (hxs : ∀ x ∈ xs, IsItem x) :
    items (", ".intercalate xs) = xs :=
  splitCommas_joined (fun _ => List.dropWhile_cons_of_pos rfl) hne fun x hx =>
    ⟨(hxs x hx).1, (hxs x hx).2⟩

end Text

/-! ### Mentions -/

/-- A way in which a process mentions a name: by a part, a shared reference or a reference to a
resource, of some kind. -/
inductive Mention where
  | part (type : PartType)
  | shared (type : PartType)
  | resource (type : ResourceType)
  deriving DecidableEq, Repr

namespace Mention

/-- How a way is written. -/
def label : Mention → String
  | part type => "part:" ++ type.label
  | shared type => "shared:" ++ type.label
  | resource type => "resource:" ++ type.label

/-- All ways. -/
def all : List Mention :=
  PartType.all.map part ++ PartType.all.map shared ++ ResourceType.all.map resource

lemma mem_all (k : Mention) : k ∈ all := by
  rcases k with type | type | type <;> cases type <;> decide

/-- Ways are written differently. -/
lemma label_injective : Function.Injective label := fun k l h =>
  List.inj_on_of_nodup_map (by decide) (mem_all k) (mem_all l) h

lemma label_ne_empty (k : Mention) : k.label ≠ "" := by
  cases k <;> simp [label]

lemma isItem_label (k : Mention) : Text.IsItem k.label := by
  rcases k with type | type | type <;> cases type <;>
    simp [Text.IsItem, label, PartType.label, ResourceType.label]

end Mention

namespace Index

variable {i : Index} {name : String}

/-- The process mentions a name in this way. -/
def Has (i : Index) (name : String) : Mention → Prop
  | .part type => { name := .text name, type } ∈ i.parts
  | .shared type => { name := .text name, type } ∈ i.shared
  | .resource type => { name := .text name, type } ∈ i.resourceRefs

lemma hasPart_iff : i.hasPart name = true ↔ ∃ type, i.Has name (.part type) := by
  rw [hasPart, List.any_eq_true]
  constructor
  · rintro ⟨⟨n, type⟩, hp, hname⟩
    obtain rfl := Value.same_text_right.mp hname
    exact ⟨type, hp⟩
  · rintro ⟨type, hp⟩
    exact ⟨_, hp, Value.same_text_right.mpr rfl⟩

lemma hasShared_iff {type : Option PartType} : i.hasShared name type = true ↔
    ∃ t, i.Has name (.shared t) ∧ ∀ u ∈ type, t = u := by
  rw [hasShared, List.any_eq_true]
  constructor
  · rintro ⟨⟨n, t⟩, hr, htest⟩
    obtain ⟨hname, htype⟩ := Bool.and_eq_true_iff.mp htest
    obtain rfl := Value.same_text_right.mp hname
    exact ⟨t, hr, by simpa [Option.all_eq_true] using htype⟩
  · rintro ⟨t, hr, htype⟩
    exact ⟨_, hr, Bool.and_eq_true_iff.mpr ⟨Value.same_text_right.mpr rfl,
      by simpa [Option.all_eq_true] using htype⟩⟩

lemma hasReference_iff {type : Option ResourceType} : i.hasReference name type = true ↔
    ∃ t, i.Has name (.resource t) ∧ ∀ u ∈ type, t = u := by
  rw [hasReference, List.any_eq_true]
  constructor
  · rintro ⟨⟨n, t⟩, hr, htest⟩
    obtain ⟨hname, htype⟩ := Bool.and_eq_true_iff.mp htest
    obtain rfl := Value.same_text_right.mp hname
    exact ⟨t, hr, by simpa [Option.all_eq_true] using htype⟩
  · rintro ⟨t, hr, htype⟩
    exact ⟨_, hr, Bool.and_eq_true_iff.mpr ⟨Value.same_text_right.mpr rfl,
      by simpa [Option.all_eq_true] using htype⟩⟩

lemma mentions_iff : i.mentions name = true ↔ ∃ k, i.Has name k := by
  rw [mentions, Bool.or_eq_true, Bool.or_eq_true, hasPart_iff, hasShared_iff, hasReference_iff]
  constructor
  · rintro ((⟨t, h⟩ | ⟨t, h, -⟩) | ⟨t, h, -⟩)
    exacts [⟨.part t, h⟩, ⟨.shared t, h⟩, ⟨.resource t, h⟩]
  · rintro ⟨t | t | t, h⟩
    exacts [.inl (.inl ⟨t, h⟩), .inl (.inr ⟨t, h, nofun⟩), .inr ⟨t, h, nofun⟩]

/-- The kinds of a row are the ways in which the process mentions the name. -/
lemma mem_kindsOf {s : String} : s ∈ i.kindsOf name ↔ ∃ k, i.Has name k ∧ s = k.label := by
  simp only [kindsOf, List.mem_mergeSort, List.mem_eraseDups, List.mem_append, List.mem_map,
    List.mem_filter, Value.same_text_right]
  constructor
  · rintro ((⟨⟨n, t⟩, ⟨h, rfl⟩, rfl⟩ | ⟨⟨n, t⟩, ⟨h, rfl⟩, rfl⟩) | ⟨⟨n, t⟩, ⟨h, rfl⟩, rfl⟩)
    exacts [⟨.part t, h, rfl⟩, ⟨.shared t, h, rfl⟩, ⟨.resource t, h, rfl⟩]
  · rintro ⟨t | t | t, h, rfl⟩
    exacts [.inl (.inl ⟨_, ⟨h, rfl⟩, rfl⟩), .inl (.inr ⟨_, ⟨h, rfl⟩, rfl⟩),
      .inr ⟨_, ⟨h, rfl⟩, rfl⟩]

/-- A row tells of an index in which ways it mentions a name: its last cell is not empty and lists
them, each once. -/
def Describes (i : Index) (name : String) (row : Value) : Prop :=
  ∃ via, row = .dict [(.text "process_id", i.processId), (.text "process_name", i.processName),
      (.text "via", .text via)] ∧
    via ≠ "" ∧ (Text.items via).Nodup ∧ (∀ k : Mention, k.label ∈ Text.items via ↔ i.Has name k) ∧
    ∀ item ∈ Text.items via, ∃ k : Mention, item = k.label

lemma describes_impactRow (h : i.mentions name = true) : i.Describes name (impactRow name i) := by
  obtain ⟨k, hk⟩ := mentions_iff.mp h
  have hne : i.kindsOf name ≠ [] := List.ne_nil_of_mem (mem_kindsOf.mpr ⟨k, hk, rfl⟩)
  have hitems : Text.items (", ".intercalate (i.kindsOf name)) = i.kindsOf name := by
    refine Text.items_joined hne fun s hs => ?_
    obtain ⟨l, -, rfl⟩ := mem_kindsOf.mp hs
    exact l.isItem_label
  refine ⟨_, rfl, fun hempty => ?_, ?_, fun l => ?_, ?_⟩
  · -- an empty cell would list nothing but an empty text
    rw [hempty] at hitems
    have hk' : k.label ∈ Text.items "" := hitems ▸ mem_kindsOf.mpr ⟨k, hk, rfl⟩
    exact k.label_ne_empty (by simpa [Text.items, Text.pieces] using hk')
  · rw [hitems]
    exact (List.mergeSort_perm _ _).nodup_iff.mpr (Text.nodup_eraseDups _)
  · rw [hitems, mem_kindsOf]
    constructor
    · rintro ⟨m, hm, hl⟩
      exact Mention.label_injective hl ▸ hm
    · exact fun hl => ⟨l, hl, rfl⟩
  · rw [hitems]
    intro s hs
    obtain ⟨l, -, hl⟩ := mem_kindsOf.mp hs
    exact ⟨l, hl⟩

end Index

/-! ### The queries for a name -/

namespace Registry

variable {r r' : Registry} {name : String}

/-- The registry holds indexes under textual ids, each once and under its own id. -/
structure Textual (r : Registry) : Prop where
  keyed : r.Keyed
  titled : r.Titled

lemma textual_empty : Textual {} := ⟨⟨List.forall_mem_nil _, List.nodup_nil⟩, nofun⟩

/-- **One change** of a textual id keeps the registry textual. -/
lemma Textual.apply (hr : r.Textual) {c : Change} (hc : c.subject.isText) {changed : Bool}
    (happly : c.apply r = .ok (r', changed)) : r'.Textual := by
  cases c with
  | remove s =>
      obtain rfl : (r.remove (.text s)).1 = r' := congrArg Prod.fst (Except.ok.inj happly)
      refine ⟨hr.keyed.remove s, fun t i hi => ?_⟩
      by_cases hts : t = s
      · rw [hts, get?_remove_self] at hi
        cases hi
      · rw [get?_remove_other r hts] at hi
        exact hr.titled t i hi
  | publish i =>
      refine ⟨hr.keyed.publish hc happly, fun t j hj => ?_⟩
      by_cases hid : i.processId = .text t
      · cases publish_filed happly with
        | kept _ _ => exact hr.titled t j hj
        | entered _ hentered =>
            rw [hid] at hentered
            obtain rfl : i = j := Option.some.inj (hentered.find?_text.symm.trans hj)
            exact hid
      · rw [publish_get?_text happly hid] at hj
        exact hr.titled t j hj

/-- **A whole run** of such changes keeps the registry textual. -/
lemma Textual.following : ∀ {cs r}, Textual r → (∀ c ∈ cs, c.subject.isText) →
    Textual (following r cs) := by
  intro cs
  induction cs with
  | nil => exact fun hr _ => hr
  | cons c cs ih =>
      intro r hr hcs
      obtain ⟨hc, hcs⟩ := List.forall_mem_cons.mp hcs
      rcases happly : c.apply r with e | ⟨r', changed⟩
      · simp only [Registry.following, happly]
        exact ih hr hcs
      · simp only [Registry.following, happly]
        exact ih (hr.apply hc happly) hcs

/-- The registry holds an index, under its id. -/
def Stores (r : Registry) (i : Index) : Prop := ∃ s, i.processId = .text s ∧ r.get? (.text s) = some i

/-- What is found without a kind is what is found for each of the kinds, in the same order. -/
structure Unites {κ : Type} (found : Option κ → List Index) : Prop where
  order : ∀ type, (found (some type)).Sublist (found none)
  mem : ∀ i, i ∈ found none ↔ ∃ type, i ∈ found (some type)

/-- The queries for a name find `shared` and `references`, and the impact of the name is `found`:
the indexes that the registry holds and that have a part of this name or are found by one of these
two queries, in increasing order of their ids and each once. -/
structure Searches (r : Registry) (name : String) (shared : Option PartType → List Index)
    (references : Option ResourceType → List Index) (found : List Index) : Prop where
  findShared : ∀ type, r.findShared name type = .ok (shared type)
  findReference : ∀ type, r.findReference name type = .ok (references type)
  impact : r.impact name = .ok found
  shared_mem : ∀ type i, i ∈ shared (some type) ↔ r.Stores i ∧ i.Has name (.shared type)
  references_mem : ∀ type i, i ∈ references (some type) ↔ r.Stores i ∧ i.Has name (.resource type)
  shared_unites : Unites shared
  references_unites : Unites references
  ascending : found.Pairwise fun i j => Value.less? i.processId j.processId = some true
  nodup : found.Nodup
  mem : ∀ i, i ∈ found ↔ r.Stores i ∧
    ((∃ type, i.Has name (.part type)) ∨ i ∈ shared none ∨ i ∈ references none)

section Filters

variable {κ : Type} {is : List Index} {test : Index → Option κ → Bool} {has : Index → κ → Prop}

lemma mem_filter_some (htest : ∀ i type, test i type = true ↔ ∃ t, has i t ∧ ∀ u ∈ type, t = u)
    {type : κ} {i : Index} : i ∈ is.filter (test · (some type)) ↔ i ∈ is ∧ has i type := by
  rw [List.mem_filter, htest]
  refine and_congr_right fun _ => ⟨?_, fun h => ⟨type, h, fun u hu => Option.some.inj hu⟩⟩
  rintro ⟨t, ht, htype⟩
  exact htype type rfl ▸ ht

lemma mem_filter_none (htest : ∀ i type, test i type = true ↔ ∃ t, has i t ∧ ∀ u ∈ type, t = u)
    {i : Index} : i ∈ is.filter (test · none) ↔ i ∈ is ∧ ∃ type, has i type := by
  rw [List.mem_filter, htest]
  exact and_congr_right fun _ => exists_congr fun t => and_iff_left nofun

/-- A filter by a kind that may be left out finds, without one, what it finds for each kind. -/
lemma unites_filter (htest : ∀ i type, test i type = true ↔ ∃ t, has i t ∧ ∀ u ∈ type, t = u) :
    Unites fun type => is.filter (test · type) where
  order type := by
    refine List.monotone_filter_right is fun i hi => ?_
    obtain ⟨t, ht, -⟩ := (htest i _).mp hi
    exact (htest i none).mpr ⟨t, ht, nofun⟩
  mem i := by
    simp only [mem_filter_none htest, mem_filter_some htest, exists_and_left]

end Filters

/-- In strictly increasing order nothing stands twice. -/
lemma nodup_of_ascending {is : List Index} (htext : ∀ i ∈ is, i.processId.isText)
    (h : is.Pairwise fun i j => Value.less? i.processId j.processId = some true) : is.Nodup := by
  refine List.Pairwise.imp_of_mem ?_ h
  rintro i _ hi - hless rfl
  obtain ⟨s, hs⟩ := Value.isText_iff.mp (htext i hi)
  simp [hs, Value.less?, Text.precedes] at hless

/-- **In a textual registry** the queries for a name agree. -/
lemma Textual.searches (hr : r.Textual) (name : String) : r.Searches name
    (fun type => r.inOrder.filter (·.hasShared name type))
    (fun type => r.inOrder.filter (·.hasReference name type))
    (r.inOrder.filter (·.mentions name)) := by
  have hviews := hr.keyed.views hr.titled
  have hstores : ∀ i, i ∈ r.inOrder ↔ r.Stores i := fun i => by
    rw [hviews.mem]
    constructor
    · rintro ⟨htext, hget⟩
      obtain ⟨s, hs⟩ := Value.isText_iff.mp htext
      exact ⟨s, hs, hs ▸ hget⟩
    · rintro ⟨s, hs, hget⟩
      exact ⟨by rw [hs]; rfl, hs ▸ hget⟩
  have hascending := hviews.ascending.sublist (List.filter_sublist (p := fun i => i.mentions name))
  have hshared : ∀ (i : Index) type, i.hasShared name type = true ↔
      ∃ t, i.Has name (.shared t) ∧ ∀ u ∈ type, t = u := fun _ _ => Index.hasShared_iff
  have hreference : ∀ (i : Index) type, i.hasReference name type = true ↔
      ∃ t, i.Has name (.resource t) ∧ ∀ u ∈ type, t = u := fun _ _ => Index.hasReference_iff
  exact {
    findShared := fun type => by rw [Registry.findShared, hviews.all]; rfl
    findReference := fun type => by rw [Registry.findReference, hviews.all]; rfl
    impact := by rw [Registry.impact, hviews.all]; rfl
    shared_mem := fun type i => by rw [mem_filter_some hshared, hstores]
    references_mem := fun type i => by rw [mem_filter_some hreference, hstores]
    shared_unites := unites_filter hshared
    references_unites := unites_filter hreference
    ascending := hascending
    nodup := nodup_of_ascending
      (fun i hi => ((hviews.mem i).mp (List.mem_of_mem_filter hi)).1) hascending
    mem := fun i => by
      rw [List.mem_filter, hstores, mem_filter_none hshared, mem_filter_none hreference, hstores]
      refine and_congr_right fun hi => ?_
      rw [Index.mentions, Bool.or_eq_true, Bool.or_eq_true, or_assoc, Index.hasPart_iff, hshared,
        hreference]
      simp [hi] }

/-- A report shows the impact of a name: a row for each index that is found, in the same order, and
in the summary the number of rows and that of all indexes. -/
def Reports (r : Registry) (name : String) (found : List Index) (report : Report) : Prop :=
  ∃ rows, List.Forall₂ (fun i row => i.Describes name row) found rows ∧
    report.data = .dict [(.text "rows", .list rows), (.text "summary", .text
      (toString rows.length ++ " of " ++ toString r.size ++ " processes reference " ++
        ("'" ++ name ++ "'")))]

lemma reports_of_impact {found : List Index} {report : Report} (himpact : r.impact name = .ok found)
    (hfound : ∀ i ∈ found, i.mentions name = true) (hreport : r.impactReport? name = .ok report) :
    r.Reports name found report := by
  refine ⟨found.map (Index.impactRow name), ?_, Report.impactReport_data himpact hreport⟩
  rw [List.forall₂_map_right_iff, List.forall₂_same]
  exact fun i hi => Index.describes_impactRow (hfound i hi)

lemma following_append (cs ds : List Change) : ∀ r : Registry,
    following r (cs ++ ds) = following (following r cs) ds := by
  induction cs with
  | nil => exact fun r => rfl
  | cons c cs ih =>
      intro r
      rcases happly : c.apply r with e | ⟨r', changed⟩ <;>
        simp only [List.cons_append, following, happly, ih]

end Registry

/-! ### Builds of textual ids -/

namespace Pipeline

variable {s : Settings} {r : Registry} {p : ProcessDefinition}

/-- A registry is made of another by changes of textual ids. -/
def ReachedFrom (r r' : Registry) : Prop :=
  ∃ cs : List Change, (∀ c ∈ cs, c.subject.isText) ∧ r' = Registry.following r cs

lemma ReachedFrom.refl (r : Registry) : ReachedFrom r r := ⟨[], List.forall_mem_nil _, rfl⟩

lemma ReachedFrom.trans {r r' r'' : Registry} (h : ReachedFrom r r') (h' : ReachedFrom r' r'') :
    ReachedFrom r r'' := by
  obtain ⟨cs, hcs, rfl⟩ := h
  obtain ⟨ds, hds, rfl⟩ := h'
  exact ⟨cs ++ ds, List.forall_mem_append.mpr ⟨hcs, hds⟩, (Registry.following_append cs ds r).symm⟩

/-- A build changes the registry by a publication under the id of its process, if at all. -/
lemma settle_reached (hid : p.id.isText) {a : Answer Index} {t : Site}
    (h : settle s { process := p, registry := r } = (a, t)) : ReachedFrom r t.registry := by
  have hsettles := settles s { process := p, registry := r }
  rw [h] at hsettles
  cases hsettles with
  | unmade | unbagged | refused => exact .refl r
  | @filed i _ _ _ hmade _ hpublish =>
      refine ⟨[.publish i], List.forall_mem_singleton.mpr ?_, ?_⟩
      · rw [Change.subject, (made_id hmade).1]
        exact hid
      · have happly : (Change.publish i).apply r = r.publish i := rfl
        simp only [Registry.following, happly, hpublish]

/-- **Several builds** change the registry by publications under the ids of the processes. -/
lemma runAll_reached (halt : Bool) : ∀ {ps : List ProcessDefinition} {r : Registry},
    (∀ p ∈ ps, p.id.isText) → ReachedFrom r (runAll s halt r ps).2.1 := by
  intro ps
  induction ps with
  | nil => exact fun _ => .refl _
  | cons p ps ih =>
      intro r hps
      obtain ⟨hp, hps⟩ := List.forall_mem_cons.mp hps
      rcases hsettle : settle s { process := p, registry := r } with ⟨a, t⟩
      have hfirst := settle_reached hp hsettle
      obtain ⟨lines, hrun⟩ := exists_run hsettle
      rw [runAll, hrun]
      rcases a with e | i
      · cases halt
        · exact hfirst.trans (ih hps)
        · exact hfirst
      · exact hfirst.trans (ih hps)

lemma buildMany_reached {ps : List ProcessDefinition} (hps : ∀ p ∈ ps, p.id.isText) :
    ReachedFrom r (buildMany s r ps).2.2.1 := by
  rw [buildMany]
  split
  · exact .refl r
  · dsimp only
    split
    · exact .refl r
    · exact runAll_reached _ hps

end Pipeline

/-! ### The command -/

namespace Descriptor

/-- The id of a process that a tree describes is a text. -/
lemma parse_id {source : String} {data : Value} {p : ProcessDefinition}
    (hparse : parse source data = .ok p) : p.id.isText := by
  cases data with
  | dict es mark =>
      rw [parse] at hparse
      dsimp only at hparse
      split at hparse
      · cases hparse
      obtain ⟨id, hid, hparse⟩ := Answer.bind_eq_ok_iff.mp hparse
      obtain ⟨s, -, hs⟩ := Answer.bind_eq_ok_iff.mp hid
      cases hs
      simp only [Answer.bind_eq_ok_iff] at hparse
      obtain ⟨name, -, metadata, -, globals₀, -, globals, -, imports, -, functions, -, nodes₀, -,
        nodes, -, vars₀, -, vars, -, items₀, -, items, -, signals, -, messages₀, -, messages, -,
        hparse⟩ := hparse
      cases hparse
      rfl
  | _ => cases hparse

/-- The id of a process that a file describes is a text. -/
lemma load_id {tree : FileTree} {path : Path} {p : ProcessDefinition}
    (hload : load tree path = .ok p) : p.id.isText := by
  obtain ⟨text, -, hload⟩ := Answer.bind_eq_ok_iff.mp hload
  dsimp only at hload
  split at hload
  · cases hload
  · obtain ⟨data, -, hparse⟩ := Answer.bind_eq_ok_iff.mp hload
    exact parse_id hparse

end Descriptor

namespace Shell

variable {h m : Shell} {name : String} {format : Option String}

/-- What indexing files leaves: the registry has changed under textual ids, and faults have been
reported. -/
def Indexed (h m : Shell) : Prop :=
  ∃ registry err, Pipeline.ReachedFrom h.registry registry ∧ m = { h with registry, err }

lemma Indexed.refl (h : Shell) : Indexed h h := ⟨_, _, .refl _, rfl⟩

lemma Indexed.complain (hm : Indexed h m) (err : List Printed) : Indexed h { m with err } := by
  obtain ⟨registry, -, hregistry, rfl⟩ := hm
  exact ⟨registry, err, hregistry, rfl⟩

lemma Indexed.build (hm : Indexed h m) {registry : Registry}
    (hregistry : Pipeline.ReachedFrom m.registry registry) : Indexed h { m with registry } := by
  obtain ⟨between, err, hbetween, rfl⟩ := hm
  exact ⟨registry, err, hbetween.trans hregistry, rfl⟩

lemma reporting_ends {α : Type} (hm : Indexed h m) (a : Answer α) : (reporting a).Ends m
    (fun x m' => Indexed h m' ∧ ∀ y, x = some y → a = .ok y) fun _ m' => Indexed h m' := by
  rcases a with e | y
  · by_cases hreported : e.isReported = true
    · rw [reporting, if_pos hreported]
      exact .bind (Step.ends_modify.mpr (Step.ends_pure.mpr ⟨hm.complain _, nofun⟩))
    · rw [reporting, if_neg hreported]
      exact Step.ends_throw.mpr hm
  · exact Step.ends_pure.mpr ⟨hm, fun z hz => congrArg _ (Option.some.inj hz)⟩

lemma loadAll_ends : ∀ (files : List String) {m : Shell}, Indexed h m → (loadAll files).Ends m
    (fun x m' => Indexed h m' ∧ ∀ ps, x = some ps → ∀ p ∈ ps, p.id.isText) fun _ m' => Indexed h m'
  | [], m, hm => Step.ends_pure.mpr ⟨hm, fun ps hps => by
      obtain rfl := Option.some.inj hps
      exact List.forall_mem_nil _⟩
  | file :: files, m, hm => by
      refine .bind (Step.ends_get.mpr (.bind ((reporting_ends hm _).imp ?_ fun _ _ => id)))
      rintro (_ | p) m' ⟨hm', hload⟩
      · exact Step.ends_pure.mpr ⟨hm', nofun⟩
      · refine .bind ((loadAll_ends files hm').imp ?_ fun _ _ => id)
        rintro x m'' ⟨hm'', hrest⟩
        refine Step.ends_pure.mpr ⟨hm'', fun ps hps => ?_⟩
        obtain ⟨rest, rfl, rfl⟩ := Option.map_eq_some_iff.mp hps
        exact List.forall_mem_cons.mpr ⟨Descriptor.load_id (hload p rfl), hrest rest rfl⟩

lemma buildAll_ends {ps : List ProcessDefinition} (hps : ∀ p ∈ ps, p.id.isText)
    (hm : Indexed h m) :
    (buildAll ps).Ends m (fun _ m' => Indexed h m') fun _ m' => Indexed h m' := by
  refine .bind (Step.ends_get.mpr (.bind (Step.ends_logs _ (.bind (Step.ends_set.mpr ?_)))))
  exact (reporting_ends (hm.build (Pipeline.buildMany_reached hps)) _).imp (fun _ _ => And.left)
    fun _ _ => id

/-- **Indexing files** changes the registry under textual ids. -/
lemma indexAll_ends (h : Shell) (files : List String) :
    (indexAll files).Ends h (fun _ m => Indexed h m) fun _ m => Indexed h m := by
  refine .bind ((loadAll_ends files (.refl h)).imp ?_ fun _ _ => id)
  rintro (_ | ps) m ⟨hm, hps⟩
  · exact Step.ends_pure.mpr hm
  · exact buildAll_ends (hps ps rfl) hm

/-- How the command ends after the files have been indexed: a failure passes through, a fault that
was reported gives 1, and else a report of the impact in the registry as it is now is printed. It
cannot be shown if the format is unknown, or if the name of a process in it is no text. -/
inductive Concludes (name : String) (format : Option String) :
    Answer (Option (List Index)) × Shell → Answer Nat × Shell → Prop
  | failed {e : Fault} {m : Shell} : Concludes name format (.error e, m) (.error e, m)
  | reported {m : Shell} : Concludes name format (.ok none, m) (.ok 1, m)
  | shown {is found : List Index} {m : Shell} {shared : Option PartType → List Index}
      {references : Option ResourceType → List Index} {report : Report} {text : String}
      (hsearches : m.registry.Searches name shared references found)
      (hreport : m.registry.Reports name found report)
      (htext : report.render? (m.formatOf format) m.canvas = .ok text) :
      Concludes name format (.ok (some is), m) (.ok 0, { m with out := m.out ++ [.lines text] })
  | unshown {is found : List Index} {m : Shell} {shared : Option PartType → List Index}
      {references : Option ResourceType → List Index} {e : Fault}
      (hsearches : m.registry.Searches name shared references found)
      (hfault : ReportFormat.choose? (m.formatOf format) (.text "table") = .error e ∨
        ∃ i ∈ found, i.processName.isText = false) :
      Concludes name format (.ok (some is), m) (.error e, m)

lemma Indexed.textual (hm : Indexed h m) (hh : h.registry.Textual) : m.registry.Textual := by
  obtain ⟨_, err, ⟨cs, hcs, rfl⟩, rfl⟩ := hm
  exact hh.following hcs

lemma impact_concludes (hh : h.registry.Textual) (name : String) (files : List String)
    (format : Option String) :
    Concludes name format ((indexAll files).outcome h) ((impact name files format).outcome h) := by
  have hindexed : Indexed h ((indexAll files).after h) := (indexAll_ends h files).after
  rcases hindex : (indexAll files).outcome h with ⟨e | _ | is, m⟩
  · rw [impact, Step.outcome_bind_error hindex]
    exact .failed
  · have hend : (impact name files format).outcome h = (.ok 1, m) :=
      Step.outcome_bind_ok hindex (Step.ends_pure.mpr rfl)
    rw [hend]
    exact .reported
  · obtain rfl : (indexAll files).after h = m := congrArg Prod.snd hindex
    have hsearches := (hindexed.textual hh).searches name
    generalize (indexAll files).after h = m at *
    obtain ⟨report, hreport⟩ : ∃ report, m.registry.impactReport? name = .ok report :=
      ⟨_, by rw [Registry.impactReport?, hsearches.impact]; rfl⟩
    have hreports := Registry.reports_of_impact hsearches.impact
      (fun i hi => (List.mem_filter.mp hi).2) hreport
    rcases htext : report.render? (m.formatOf format) m.canvas with e | text
    · have hend : (impact name files format).outcome h = (.error e, m) := by
        refine Step.outcome_bind_ok hindex (.bind (Step.ends_get.mpr (.bind ?_)))
        rw [hreport, Step.ends_ofAnswer_ok]
        refine .bind (.bind (Step.ends_get.mpr (.bind ?_)))
        rw [htext, Step.ends_ofAnswer_error]
      rw [hend]
      refine .unshown hsearches (Report.render_cases (fun i hi => ?_) hsearches.impact hreport htext)
      obtain ⟨s, hs, -⟩ := ((hsearches.mem i).mp hi).1
      rw [hs]
      rfl
    · have hend : (impact name files format).outcome h =
          (.ok 0, { m with out := m.out ++ [.lines text] }) := by
        refine Step.outcome_bind_ok hindex (.bind (Step.ends_get.mpr (.bind ?_)))
        rw [hreport, Step.ends_ofAnswer_ok]
        refine .bind (.bind (Step.ends_get.mpr (.bind ?_)))
        rw [htext, Step.ends_ofAnswer_ok]
        exact Step.ends_modify.mpr (Step.ends_pure.mpr rfl)
      rw [hend]
      exact .shown hsearches hreports htext

end Shell

namespace Registry

/-- **The impact of a name.** After any publications and removals the queries for a name agree, and
the command that shows the impact on the processes in some files, which are published first, ends
with a report of exactly the indexes that are found, each with the ways in which it mentions the
name. -/
theorem impact_run (cs : List Change) (hcs : ∀ c ∈ cs, c.subject.isText) (name : String) :
    (∃ shared references found, (following {} cs).Searches name shared references found) ∧
    ∀ (h : Shell) (files : List String) (format : Option String), h.registry = following {} cs →
      Shell.Concludes name format ((Shell.indexAll files).outcome h)
        ((Shell.impact name files format).outcome h) := by
  have htextual : (following {} cs).Textual := textual_empty.following hcs
  refine ⟨⟨_, _, _, htextual.searches name⟩, fun h files format hh => ?_⟩
  exact Shell.impact_concludes (hh ▸ htextual) name files format

/-- An index with a part. -/
def exposing : Index := .ofParts "P" "n" [{ name := .text "v", type := .var }]

theorem impact_run_exposing :
    let cs := [.publish exposing, .publish (.ofParts "Q" "m" []), .remove "R"]
    (∀ c ∈ cs, c.subject.isText) ∧
      ∃ shared references, (following {} cs).Searches "v" shared references [exposing] := by
  intro cs
  have hcs : ∀ c ∈ cs, c.subject.isText := by
    simp [cs, Change.subject, exposing, Index.ofParts, Value.isText, Value.text?]
  obtain ⟨⟨shared, references, found, hsearches⟩, -⟩ := impact_run cs hcs "v"
  have hfound : (following {} cs).impact "v" = .ok [exposing] := by cbv
  obtain rfl := Except.ok.inj (hsearches.impact.symm.trans hfound)
  exact ⟨hcs, shared, references, hsearches⟩

end Registry
end Concordance

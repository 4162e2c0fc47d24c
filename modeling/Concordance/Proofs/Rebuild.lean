import Mathlib
import Concordance.Proofs.Interleaving
import Concordance.Proofs.Noninterference

/-!
Building a process again: the published index in its bag has no influence.

* `Index.fingerprinted_iff` : an index whose names are texts has a fingerprint exactly if all of
  them can be encoded.
* `Registry.Holds r i` : under the id of the index `i` an index with its fingerprint is stored.
  `Registry.publish_again` : publishing it again changes nothing, and says so.
* `Pipeline.registryAfter` : the registry after several builds. `Pipeline.get?_registryAfter` : the
  entries of other ids are as before.
* `Pipeline.rebuild_agrees` : two processes that are the same for the enabled dialects are built
  alike. A process that was built can be built again exactly if its names can be encoded; then the
  index is the same and the registry is as before.
* `Pipeline.rebuild_fails_half` : a process with a name that cannot be encoded is built once.
-/

namespace Concordance

/-- Under a text that is not the new key everything is found as before. -/
lemma Entered.find?_text_other {α : Type} {k : Value} {a : α} {es fs : List (Value × α)}
    (h : Entered k a es fs) {s : String} (hk : k ≠ .text s) :
    (fs.find? fun e => e.1.same (.text s)).map (·.2) =
      (es.find? fun e => e.1.same (.text s)).map (·.2) := by
  cases h with
  | @replaced before behind l old hes hbefore hl =>
      have hne : l.same (.text s) = false := Bool.eq_false_iff.mpr fun hs => by
        rw [Value.same_text_right.mp hs, Value.same_text_left] at hl
        exact hk hl.symm
      simp only [hes, List.find?_append, List.find?_cons, hne]
  | added hes =>
      have hne : k.same (.text s) = false :=
        Bool.eq_false_iff.mpr fun hs => hk (Value.same_text_right.mp hs)
      simp [List.find?_append, hne]

/-! ### Which indexes have a fingerprint -/

namespace Index

/-- A reference whose name is a text is written only if the text can be encoded. -/
lemma isEncodable_of_referenceText? {letter t s : String} {a : String × Value} (hs : a.2 = .text s)
    (h : referenceText? letter a = .ok t) : Text.isEncodable s := by
  rw [referenceText?, hs, Value.display?_text] at h
  change encodable? (letter ++ ":" ++ a.1 ++ ":" ++ s ++ "\x00") = .ok t at h
  rw [encodable?] at h
  split at h
  · next hall =>
      simp only [Text.isEncodable_append, Bool.and_eq_true] at hall
      exact hall.1.2
  · cases h

/-- The id and the name at the head of the content are written only if they can be encoded. -/
lemma isEncodable_of_head {x n t : String}
    (h : encodable? (x ++ "\x00" ++ n ++ "\x00") = .ok t) :
    Text.isEncodable x ∧ Text.isEncodable n := by
  rw [encodable?] at h
  split at h
  · next hall =>
      simp only [Text.isEncodable_append, Bool.and_eq_true] at hall
      exact ⟨hall.1.1.1, hall.1.2⟩
  · cases h

/-- A list of references whose names are texts is written only if these can be encoded. -/
lemma encodable_of_sorted {α : Type} {key : α → String × Value} {letter : String} {xs ys : List α}
    {texts : List String} (hxs : ∀ x ∈ xs, (key x).2.isText)
    (hys : Value.sortPairs? key xs = .ok ys)
    (h : (ys.mapM fun x => referenceText? letter (key x)) = .ok texts) :
    ∀ x ∈ xs, ∃ s, (key x).2 = .text s ∧ Text.isEncodable s := by
  intro x hx
  obtain ⟨s, hs⟩ := Value.isText_iff.mp (hxs x hx)
  rw [Value.sortPairs?_eq hxs, Except.ok.injEq] at hys
  have hmem : x ∈ ys := hys ▸ (Value.orderedBy_perm _ xs).mem_iff.mpr hx
  obtain ⟨t, ht⟩ := Answer.mapM_ok_iff.mp ⟨texts, h⟩ x hmem
  exact ⟨s, hs, isEncodable_of_referenceText? hs ht⟩

variable {p : ProcessDefinition} {F : Set Finding} {i j : Index}

/-- **The fingerprint of an index whose names are texts can be computed** exactly if all of them can
be encoded. -/
theorem fingerprinted_iff (h : ∀ v ∈ i.names, v.isText) : i.Fingerprinted ↔ i.Legible := by
  refine ⟨fun ⟨f, hf⟩ => ?_, Legible.fingerprinted⟩
  simp only [fingerprint?, contentBytes?, contentText?, sortParts?, sortShared?, sortResourceRefs?,
    Answer.bind_eq_ok_iff] at hf
  obtain ⟨bytes, ⟨text, ⟨id, hid, name, hname, head, hhead, ps, hps, parts, hparts, ss, hss,
    shared, hshared, rs, hrs, refs, hrefs, -⟩, -⟩, -⟩ := hf
  simp only [names, List.forall_mem_cons, List.forall_mem_append, List.forall_mem_map] at h
  obtain ⟨hidText, hnameText, hpartsText, hsharedText, hrefsText⟩ := h
  obtain ⟨x, hx⟩ := Value.isText_iff.mp hidText
  obtain ⟨n, hn⟩ := Value.isText_iff.mp hnameText
  rw [hx, Value.display?_text] at hid
  rw [hn, Value.display?_text] at hname
  cases hid
  cases hname
  obtain ⟨hx', hn'⟩ := isEncodable_of_head hhead
  intro v hv
  simp only [names, List.mem_cons, List.mem_append, List.mem_map] at hv
  rcases hv with rfl | rfl | ⟨q, hq, rfl⟩ | ⟨q, hq, rfl⟩ | ⟨q, hq, rfl⟩
  · exact ⟨_, hx, hx'⟩
  · exact ⟨_, hn, hn'⟩
  · exact encodable_of_sorted hpartsText hps hparts q hq
  · exact encodable_of_sorted hsharedText hss hshared q hq
  · exact encodable_of_sorted hrefsText hrs hrefs q hq

/-- The names in the index of a process are texts if its id and its name are. -/
lemma Shows.names_isText (hid : p.id.isText) (hname : p.name.isText) (h : i.Shows p F) :
    ∀ v ∈ i.names, v.isText := by
  obtain ⟨own, hresources, hown⟩ := h.resources
  intro v hv
  simp only [names, List.mem_cons, List.mem_append, List.mem_map, parts_eq hresources] at hv
  rcases hv with rfl | rfl | ⟨q, hq, rfl⟩ | ⟨q, hq, rfl⟩ | ⟨q, hq, rfl⟩
  · exact h.processId ▸ hid
  · exact h.processName ▸ hname
  · obtain ⟨n, -, rfl⟩ := hown.exists_of_mem hq
    rfl
  · obtain ⟨n, -, rfl⟩ := h.shared.exists_of_mem hq
    rfl
  · obtain ⟨n, -, rfl⟩ := h.references.exists_of_mem hq
    rfl

/-- **The fingerprint of the index of a process can be computed** exactly if all its names can be
encoded. -/
theorem Shows.fingerprinted_iff (hid : p.id.isText) (hname : p.name.isText) (h : i.Shows p F) :
    i.Fingerprinted ↔ i.Legible := Index.fingerprinted_iff (h.names_isText hid hname)

end Index

/-! ### Publishing again -/

namespace Registry

variable {r r' : Registry} {i j : Index}

/-- Under the id of an index, one with its fingerprint is stored. -/
def Holds (r : Registry) (i : Index) : Prop :=
  ∃ old, r.get? i.processId = some old ∧ old.fingerprint? = i.fingerprint?

/-- Publishing an index that is held changes nothing, and says so; it is refused exactly if the
fingerprint cannot be computed. -/
lemma Holds.publish (h : r.Holds i) (hid : i.processId.isText) :
    (i.Fingerprinted ∧ r.publish i = .ok (r, false)) ∨
      ¬i.Fingerprinted ∧ ∃ e, r.publish i = .error e := by
  obtain ⟨old, hold, hprint⟩ := h
  obtain ⟨s, hs⟩ := Value.isText_iff.mp hid
  have hpublishes := publishes r i
  generalize r.publish i = answer at hpublishes ⊢
  have hstored : ∀ {other}, r.get? i.processId = some other →
      other.fingerprint? = i.fingerprint? := fun h => by
    rw [← Option.some.inj (hold.symm.trans h), hprint]
  cases hpublishes with
  | unhashable hno =>
      rw [hs, Value.hashable_text] at hno
      cases hno
  | added hnone => cases hold.symm.trans hnone
  | oldUnprinted hold' hbefore =>
      rw [hstored hold'] at hbefore
      exact .inr ⟨fun ⟨f, hf⟩ => (nomatch hf.symm.trans hbefore), _, rfl⟩
  | newUnprinted _ _ hafter => exact .inr ⟨fun ⟨f, hf⟩ => (nomatch hf.symm.trans hafter), _, rfl⟩
  | unchanged _ _ hafter => exact .inl ⟨⟨_, hafter⟩, rfl⟩
  | replaced hold' hbefore hafter hne =>
      rw [hstored hold'] at hbefore
      exact absurd (Except.ok.inj (hbefore.symm.trans hafter)) hne

/-- What was published is held. -/
lemma holds_of_publish (hid : i.processId.isText) {changed : Bool}
    (h : r.publish i = .ok (r', changed)) : r'.Holds i := by
  obtain ⟨j, hover, hj⟩ := publish_ok_get? hid h
  exact ⟨j, hj, (filedOver_ok hover).1⟩

/-- Publishing an index leaves alone what is stored under any other text. -/
lemma publish_get?_text {changed : Bool} (h : r.publish i = .ok (r', changed)) {s : String}
    (hid : i.processId ≠ .text s) : r'.get? (.text s) = r.get? (.text s) := by
  cases publish_filed h with
  | kept _ _ => rfl
  | entered _ hentered => exact hentered.find?_text_other hid

/-- An index is stored exactly if it is the first, or its fingerprint and that of the stored index
can be compared. -/
lemma filedOver_ok_iff {stored : Option Index} : (∃ j, filedOver stored i = .ok j) ↔
    ∀ old, stored = some old → old.Fingerprinted ∧ i.Fingerprinted := by
  constructor
  · rintro ⟨j, hj⟩ old rfl
    rw [filedOver, Answer.bind_eq_ok_iff] at hj
    obtain ⟨before, hbefore, hj⟩ := hj
    obtain ⟨after, hafter, -⟩ := Answer.bind_eq_ok_iff.mp hj
    exact ⟨⟨before, hbefore⟩, after, hafter⟩
  · intro h
    rcases hover : filedOver stored i with e | j
    · obtain ⟨old, hold, hno⟩ := filedOver_error hover
      exact absurd (h old hold) hno
    · exact ⟨j, rfl⟩

end Registry

/-! ### Building again -/

namespace Pipeline

variable {s : Settings} {p q : ProcessDefinition} {r : Registry} {i : Index}

/-- The registry after several builds, each under settings of its own, whether they succeed or
not. -/
def registryAfter (r : Registry) (builds : List (Settings × ProcessDefinition)) : Registry :=
  builds.foldl (fun r b => ((build b.1).after { process := b.2, registry := r }).registry) r

/-- A build leaves alone what is stored under any other text. -/
lemma get?_build {n : String} (hid : p.id ≠ .text n) :
    ((build s).after { process := p, registry := r }).registry.get? (.text n) =
      r.get? (.text n) := by
  have hsettles := settles s { process := p, registry := r }
  rw [build_after]
  generalize settle s { process := p, registry := r } = x at hsettles
  cases hsettles with
  | unmade _ => rfl
  | unbagged _ _ => rfl
  | refused _ _ _ => rfl
  | filed hmade _ hpublish =>
      rw [← (made_id hmade).1] at hid
      exact Registry.publish_get?_text hpublish hid

/-- Builds of other processes leave alone what is stored under a text. -/
lemma get?_registryAfter {n : String} : ∀ {builds : List (Settings × ProcessDefinition)}
    {r : Registry}, (∀ b ∈ builds, b.2.id ≠ .text n) →
      (registryAfter r builds).get? (.text n) = r.get? (.text n)
  | [], _, _ => rfl
  | b :: builds, r, h => by
      have hb : ((build b.1).after { process := b.2, registry := r }).registry.get? (.text n) =
          r.get? (.text n) := get?_build (h b (by simp))
      rw [← hb]
      exact get?_registryAfter fun c hc => h c (List.mem_cons_of_mem b hc)

/-- Two processes that are the same for the enabled dialects: of both an index is made, or of
none. -/
lemma made_sameAnswer (hp : p.Textual) (h : p.SameFor s.dialects q) :
    Index.SameAnswer (made s p) (made s q) := by
  rcases hstart : createBuild s with e | start
  · simp only [made, hstart, bind, Except.bind]
    exact .failed e e
  · obtain ⟨resolver, d, -, hd, rfl⟩ := createBuild_eq_ok hstart
    simp only [made, hstart, bind, Except.bind]
    exact Build.collect_sameAnswer hp h hd

/-- An index goes into a bag exactly if indexes do not go there or the bag is a mapping. -/
lemma bagged_ok_iff : (∃ q, bagged s i p = .ok q) ↔
    (s.pipeline.publishToMetadata = true → p.metadata.isMapping = true) := by
  constructor
  · rintro ⟨q, hq⟩ hmeta
    exact (bagged_carries hq).isMapping hmeta
  · intro h
    by_cases hmeta : s.pipeline.publishToMetadata = true
    · exact exists_bagged s i (h hmeta)
    · exact ⟨p, by rw [bagged, if_neg hmeta]; rfl⟩

/-- How a build ends: it answers with the index it has made if this goes into the bag, and over what
is stored. -/
lemma verdict_answer_iff {stored : Option Index} : (verdict s p stored).answer = .ok i ↔
    made s p = .ok i ∧ (∃ q, bagged s i p = .ok q) ∧ ∃ j, Registry.filedOver stored i = .ok j := by
  rcases hmade : made s p with e | k
  · simp [verdict, hmade]
  simp only [verdict, hmade, Except.ok.injEq]
  constructor
  · intro hi
    rcases hbag : bagged s k p with e | q <;> simp only [hbag] at hi
    · cases hi
    rcases hover : Registry.filedOver stored k with e | j <;> simp only [hover] at hi
    · cases hi
    · cases hi
      exact ⟨rfl, ⟨q, hbag⟩, j, hover⟩
  · rintro ⟨rfl, ⟨q, hbag⟩, j, hover⟩
    simp only [hbag, hover]

lemma build_answer (hid : p.id.isText) :
    ((build s).outcome { process := p, registry := r }).1 = (verdict s p (r.get? p.id)).answer := by
  rw [build_outcome]
  rcases h : settle s { process := p, registry := r } with ⟨a, t⟩
  rw [(settle_verdict hid h).1]

/-- Over two stored indexes the index of a process goes alike: they are the same, or all of these
can be compared. -/
def Comparable (s : Settings) (p : ProcessDefinition) (before before' : Option Index) : Prop :=
  before = before' ∨ (∀ i, made s p = .ok i → i.Legible) ∧
    ∀ old, before = some old ∨ before' = some old → old.Legible

/-- Two processes that are the same for the enabled dialects, of which an index is made: both are
built, or none. -/
lemma verdict_same_iff {j : Index} {before before' : Option Index} (h : p.SameFor s.dialects q)
    (hbefore : Comparable s p before before') (hi : made s p = .ok i) (hj : made s q = .ok j)
    (hij : i.Agree j) :
    (verdict s p before).answer = .ok i ↔ (verdict s q before').answer = .ok j := by
  have hprint : i.Fingerprinted ↔ j.Fingerprinted := by
    rw [Index.Fingerprinted, Index.Fingerprinted, hij.fingerprint]
  have hstored : (∃ k, Registry.filedOver before i = .ok k) ↔
      ∃ k, Registry.filedOver before' j = .ok k := by
    rw [Registry.filedOver_ok_iff, Registry.filedOver_ok_iff, ← hprint]
    rcases hbefore with rfl | ⟨hmade, hlegible⟩
    · rfl
    · have hnew := (hmade i hi).fingerprinted
      exact ⟨fun _ old hold => ⟨(hlegible old (.inr hold)).fingerprinted, hnew⟩,
        fun _ old hold => ⟨(hlegible old (.inl hold)).fingerprinted, hnew⟩⟩
  rw [verdict_answer_iff, verdict_answer_iff, bagged_ok_iff, bagged_ok_iff, hstored,
    h.metadata.isMapping]
  exact and_congr (iff_of_true hi hj) Iff.rfl

/-- Two processes that are the same for the enabled dialects are built alike. -/
lemma build_sameAnswer {r' : Registry} (hp : p.Textual) (h : p.SameFor s.dialects q)
    (hbefore : Comparable s p (r.get? p.id) (r'.get? p.id)) :
    Index.SameAnswer ((build s).outcome { process := p, registry := r }).1
      ((build s).outcome { process := q, registry := r' }).1 := by
  rw [build_answer hp.id, build_answer (h.textual hp).id, ← h.id]
  have hsame := made_sameAnswer hp h
  rcases hpa : (verdict s p (r.get? p.id)).answer with e | i
  · rcases hqa : (verdict s q (r'.get? p.id)).answer with f | j
    · exact .failed e f
    · have hj := (verdict_answer_iff.mp hqa).1
      rcases hi : made s p with e' | i <;> rw [hi, hj] at hsame
      · cases hsame
      · cases hsame with
        | agree hij => cases hpa.symm.trans ((verdict_same_iff h hbefore hi hj hij).mpr hqa)
  · have hi := (verdict_answer_iff.mp hpa).1
    rcases hj : made s q with f | j <;> rw [hi, hj] at hsame
    · cases hsame
    · cases hsame with
      | agree hij =>
          rw [(verdict_same_iff h hbefore hi hj hij).mp hpa]
          exact .agree hij

/-- The process with a published index in its bag is the same for every dialect. -/
lemma Carries.sameFor (h : Carries s i p q) : p.SameFor s.dialects q := by
  have hbag : s.dialects.SameBag p.metadata q.metadata := by
    by_cases hmeta : s.pipeline.publishToMetadata = true
    · have hin := h.bag hmeta
      obtain ⟨es, mark, fs, hes, hfs, -⟩ := hin.entries
      refine ⟨by rw [hes, hfs]; rfl, fun c hc _ k hk v w hv hw => .inl ?_⟩
      have hne : (.text k : Value) ≠ .text Index.metadataKey := fun hk' =>
        Contributor.metadataKey_not_mem c hc (Value.text.inj hk' ▸ hk)
      rw [hin.others _ hne, hv] at hw
      cases hw
      exact .refl v
    · rw [h.noBag (Bool.eq_false_iff.mpr hmeta)]
      refine ⟨rfl, fun c _ _ k _ v w hv hw => .inl ?_⟩
      cases hv.symm.trans hw
      exact .refl v
  rw [h.fields]
  exact .of_bag hbag

/-- An index that was made shows what its process declares. -/
lemma made_shows (hp : p.Textual) (h : made s p = .ok i) : ∃ F, i.Shows p F := by
  rw [made] at h
  obtain ⟨start, hstart, h⟩ := Answer.bind_eq_ok_iff.mp h
  obtain ⟨resolver, d, -, -, rfl⟩ := createBuild_eq_ok hstart
  exact ⟨_, ((Build.collect_exact hp).of_outcome_ok h).2⟩

/-- How a process is built whose index is held by the registry: the index is not filed again, and
this fails exactly if its names cannot be encoded. -/
lemma build_held (hp : p.Textual) (hmade : made s p = .ok i) (hbag : ∃ q, bagged s i p = .ok q)
    (hheld : r.Holds i) :
    (i.Legible ∧ r.publish i = .ok (r, false) ∧
      ∃ q, (build s).outcome { process := p, registry := r } =
        (.ok i, { process := q, registry := r })) ∨
      ¬i.Legible ∧ ∃ e t, (build s).outcome { process := p, registry := r } = (.error e, t) := by
  obtain ⟨F, hshows⟩ := made_shows hp hmade
  obtain ⟨q, hq⟩ := hbag
  rw [← hshows.fingerprinted_iff hp.id hp.name, build_outcome]
  rcases hheld.publish ((made_id hmade).1 ▸ hp.id) with ⟨hprint, hpublish⟩ | ⟨hno, e, hpublish⟩
  · refine .inl ⟨hprint, hpublish, q, ?_⟩
    simp only [settle, hmade, conclude, hq, hpublish]
  · refine .inr ⟨hno, e, { process := q, registry := r }, ?_⟩
    simp only [settle, hmade, conclude, hq, hpublish]

/-- A process that was built can be built again, after any builds of other processes, exactly if its
names can be encoded; then its index is the same, publishing it reports no change, and the registry
is as before. -/
lemma build_again {t : Site} {others : List (Settings × ProcessDefinition)} {now : Registry}
    (hp : p.Textual) (hbuild : (build s).outcome { process := p, registry := r } = (.ok i, t))
    (hothers : ∀ b ∈ others, b.2.id ≠ p.id) (hnow : registryAfter t.registry others = now) :
    now.get? p.id = t.registry.get? p.id ∧
    ((∃ j, ((build s).outcome { process := t.process, registry := now }).1 = .ok j) ↔
      i.Legible) ∧
    ∀ j t', (build s).outcome { process := t.process, registry := now } = (.ok j, t') →
      i.Agree j ∧ (∃ f, i.fingerprint? = .ok f ∧ j.fingerprint? = .ok f) ∧
        now.publish j = .ok (now, false) ∧ t'.registry = now := by
  subst hnow
  obtain ⟨n, hn⟩ := Value.isText_iff.mp hp.id
  rw [build_outcome] at hbuild
  have hsettles := settles s { process := p, registry := r }
  rw [hbuild] at hsettles
  cases hsettles with
  | @filed _ process registry _ hmade hbag hpublish =>
      have hid := (made_id hmade).1
      have hcarries := bagged_carries hbag
      have hsame : p.SameFor s.dialects process := hcarries.sameFor
      -- the other builds leave the entry alone
      have hentry : (registryAfter registry others).get? p.id = registry.get? p.id := by
        rw [hn] at hothers ⊢
        exact get?_registryAfter hothers
      have hheld : (registryAfter registry others).Holds i := by
        obtain ⟨old, hold, hprint⟩ := Registry.holds_of_publish (hid ▸ hp.id) hpublish
        exact ⟨old, by rw [← hold, hid, hentry], hprint⟩
      -- the index that is made again is filed over that entry
      have hagain := made_sameAnswer hp hsame
      rcases hj : made s process with e | j <;> rw [hmade, hj] at hagain
      · cases hagain
      have hij : i.Agree j := by cases hagain; assumption
      have hjid : j.processId = i.processId := by rw [(made_id hj).1, hid, hsame.id]
      have hjheld : (registryAfter registry others).Holds j := by
        obtain ⟨old, hold, hprint⟩ := hheld
        exact ⟨old, hjid ▸ hold, hprint.trans hij.fingerprint⟩
      have hjbag : ∃ q, bagged s j process = .ok q :=
        bagged_ok_iff.mpr fun hmeta => hsame.metadata.isMapping ▸ hcarries.isMapping hmeta
      have hlegible : i.Legible ↔ j.Legible := by
        obtain ⟨F, hi'⟩ := made_shows hp hmade
        obtain ⟨G, hj'⟩ := made_shows (hsame.textual hp) hj
        rw [← hi'.fingerprinted_iff hp.id hp.name,
          ← hj'.fingerprinted_iff (hsame.textual hp).id (hsame.textual hp).name,
          Index.Fingerprinted, Index.Fingerprinted, hij.fingerprint]
      refine ⟨hentry, ?_⟩
      rcases build_held (hsame.textual hp) hj hjbag hjheld with
        ⟨hyes, hpublish, q, hrebuild⟩ | ⟨hno, e, t, hrebuild⟩
      · refine ⟨iff_of_true ⟨j, by rw [hrebuild]⟩ (hlegible.mpr hyes), fun k t' hk => ?_⟩
        obtain ⟨f, hf⟩ := hyes.fingerprinted
        cases hrebuild.symm.trans hk
        exact ⟨hij, ⟨f, hij.fingerprint.trans hf, hf⟩, hpublish, rfl⟩
      · refine ⟨iff_of_false ?_ fun hyes => hno (hlegible.mp hyes), fun k t' hk => ?_⟩
        · rintro ⟨k, hk⟩
          rw [hrebuild] at hk
          cases hk
        · cases hrebuild.symm.trans hk

/-- **Building again.** What the bag of a process holds under keys that no enabled dialect reads has
no influence on its build. A process that was built, whose bag may hold the index now, can be built
again, after any builds of other processes, exactly if its names can be encoded; then its index is
the same, publishing it reports no change, and the registry is as before. -/
theorem rebuild_agrees (s : Settings) {p : ProcessDefinition} (hp : p.Textual) :
    (∀ q r r', p.SameFor s.dialects q → Comparable s p (r.get? p.id) (r'.get? p.id) →
      Index.SameAnswer ((build s).outcome { process := p, registry := r }).1
        ((build s).outcome { process := q, registry := r' }).1) ∧
    ∀ r i t others now, (build s).outcome { process := p, registry := r } = (.ok i, t) →
      (∀ b ∈ others, b.2.id ≠ p.id) → registryAfter t.registry others = now →
      now.get? p.id = t.registry.get? p.id ∧
      ((∃ j, ((build s).outcome { process := t.process, registry := now }).1 = .ok j) ↔
        i.Legible) ∧
      ∀ j t', (build s).outcome { process := t.process, registry := now } = (.ok j, t') →
        i.Agree j ∧ (∃ f, i.fingerprint? = .ok f ∧ j.fingerprint? = .ok f) ∧
          now.publish j = .ok (now, false) ∧ t'.registry = now := by
  refine ⟨fun q r r' h hbefore => build_sameAnswer hp h hbefore, ?_⟩
  intro r i t others now hbuild hothers hnow
  exact build_again hp hbuild hothers hnow

/-- Settings with one dialect. -/
def mvel : Settings := { plain with dialects := { enabled := [.text "mvel"] } }

lemma made_mvel : made mvel (.bare "P" "n") = .ok (.ofParts "P" "n" []) := by cbv

lemma textual_bare (x y : String) : (ProcessDefinition.bare x y).Textual where
  id := rfl
  name := rfl
  globals := by simp [ProcessDefinition.bare, Value.fields, Value.entries?]
  imports := by simp [ProcessDefinition.bare, Value.elements, Value.members?]
  functions := by simp [ProcessDefinition.bare, Value.elements, Value.members?]
  nodes := by simp [ProcessDefinition.bare, Value.elements, Value.members?]
  vars := by simp [ProcessDefinition.bare, Value.elements, Value.members?]
  items := by
    simp [ProcessDefinition.bare, Value.pairs, Value.entriesOf?, Except.toOption]

/-- The same process with an entry in its bag that no dialect reads. -/
def noted : ProcessDefinition := { ProcessDefinition.bare "P" "n" with
  metadata := .dict [(.text "note", .int 1)] }

lemma sameFor_noted : (ProcessDefinition.bare "P" "n").SameFor mvel.dialects noted := by
  have hkeys : ∀ c ∈ builtinDialects, "note" ∉ c.keys := by decide
  refine .of_bag ⟨rfl, fun c hc _ k hk v w hv hw => .inl ?_⟩
  have hne : (Value.text "note").same (.text k) = false := by
    rw [Bool.eq_false_iff, Ne, Value.same_text_left, Value.text.injEq]
    exact fun h => hkeys c hc (h ▸ hk)
  have hv' : Value.null = v := by
    simpa [ProcessDefinition.bare, Value.get?_dict, Value.lookup?] using hv
  have hw' : Value.null = w := by simpa [Value.get?_dict, Value.lookup?, hne] using hw
  rw [← hv', ← hw']
  exact .refl _

theorem rebuild_agrees_bare :
    (ProcessDefinition.bare "P" "n").Textual ∧
    Index.SameAnswer ((build mvel).outcome { process := .bare "P" "n", registry := {} }).1
      ((build mvel).outcome { process := noted, registry := {} }).1 ∧
    ∃ t now j t', (build mvel).outcome { process := .bare "P" "n", registry := {} } =
        (.ok (.ofParts "P" "n" []), t) ∧
      registryAfter t.registry [(mvel, .bare "Q" "n")] = now ∧
      (build mvel).outcome { process := t.process, registry := now } = (.ok j, t') ∧
      (Index.ofParts "P" "n" []).Agree j ∧
      t'.registry.get? (.text "P") = t.registry.get? (.text "P") := by
  have hp := textual_bare "P" "n"
  obtain ⟨hsame, hagain⟩ := rebuild_agrees mvel hp
  refine ⟨hp, hsame noted {} {} sameFor_noted (.inl rfl), ?_⟩
  have hanswer : ((build mvel).outcome { process := .bare "P" "n", registry := {} }).1 =
      .ok (.ofParts "P" "n" []) := by
    rw [build_answer hp.id, verdict_answer_iff, bagged_ok_iff, Registry.filedOver_ok_iff]
    exact ⟨made_mvel, fun _ => rfl, nofun⟩
  rcases hbuild : (build mvel).outcome { process := .bare "P" "n", registry := {} } with ⟨a, t⟩
  obtain rfl : a = .ok (.ofParts "P" "n" []) := by rw [← hanswer, hbuild]
  have hother : ∀ b ∈ [(mvel, ProcessDefinition.bare "Q" "n")],
      b.2.id ≠ (ProcessDefinition.bare "P" "n").id := by simp [ProcessDefinition.bare]
  obtain ⟨hentry, hiff, hall⟩ := hagain {} _ t _ _ hbuild hother rfl
  obtain ⟨j, hj⟩ := hiff.mpr legible_bare
  rcases hrebuild : (build mvel).outcome (Site.mk t.process (registryAfter t.registry
    [(mvel, .bare "Q" "n")])) with ⟨b, t'⟩
  obtain rfl : b = .ok j := by rw [← hj, hrebuild]
  obtain ⟨hij, -, -, hregistry⟩ := hall j t' hrebuild
  exact ⟨t, _, j, t', rfl, rfl, hrebuild, hij, by rw [hregistry]; exact hentry⟩

/-- A process with a signal whose name is half of a surrogate pair. -/
def halfSignal : ProcessDefinition where
  id := .text "P"
  signals := .set false [.text (.singleton (Text.ofHalf 0xd800))]

lemma textual_halfSignal : halfSignal.Textual :=
  have h := textual_bare "P" ""
  ⟨⟨h.id, h.name, h.globals, h.imports, h.functions⟩, h.nodes, h.vars, h.items⟩

/-- The index of this process. -/
def halfIndex : Index where
  processId := .text "P"
  processName := .text ""
  resources := halfSignal.resources [] true
  shared := [.ofPair (.singleton (Text.ofHalf 0xd800), .signal)]
  resourceRefs := []
  classes := []

lemma made_halfSignal : made plain halfSignal = .ok halfIndex := by cbv

lemma not_legible_halfIndex : ¬halfIndex.Legible := fun h => by
  obtain ⟨s, hs, hencodable⟩ := h.shared (List.mem_singleton.mpr rfl)
  cases hs
  exact absurd hencodable (by decide)

/-- **A process can be built once and not again**, if one of its names cannot be encoded: its index
is stored, but has no fingerprint that another one could be compared with. -/
theorem rebuild_fails_half : halfSignal.Textual ∧
    ∃ t, (build plain).outcome { process := halfSignal, registry := {} } = (.ok halfIndex, t) ∧
      ∃ e, ((build plain).outcome t).1 = .error e := by
  have hp := textual_halfSignal
  have hanswer : ((build plain).outcome { process := halfSignal, registry := {} }).1 =
      .ok halfIndex := by
    rw [build_answer hp.id, verdict_answer_iff, bagged_ok_iff, Registry.filedOver_ok_iff]
    exact ⟨made_halfSignal, fun _ => rfl, nofun⟩
  rcases hbuild : (build plain).outcome { process := halfSignal, registry := {} } with ⟨a, t⟩
  obtain rfl : a = .ok halfIndex := by rw [← hanswer, hbuild]
  have hothers : ∀ b ∈ ([] : List (Settings × ProcessDefinition)), b.2.id ≠ halfSignal.id :=
    List.forall_mem_nil _
  obtain ⟨-, hiff, -⟩ := build_again hp hbuild hothers rfl
  refine ⟨hp, t, rfl, ?_⟩
  rcases hrebuild : ((build plain).outcome t).1 with e | j
  · exact ⟨e, rfl⟩
  · exact absurd (hiff.mp ⟨j, hrebuild⟩) not_legible_halfIndex

end Pipeline

end Concordance

import RlcdDeck.Effects.Trace
import RlcdDeck.StructuredProvider.Service
import Mathlib.Data.List.Nodup

/-!
# Every published Provider is of its current definition

`reconcile` goes through the runs, and deletes the state of a run whose definition has changed.  A
state whose collector has ended, or could not be started, has no run: it is kept, and published under
a definition that it was not produced for when that has changed (`Leftover`).  In every other run each
publication is of the definitions that the latest `reconcile` has read, in their order, and no event
of a collector that was superseded or has ended changes anything (`published_faithful`).
-/

namespace RlcdDeck.StructuredProvider.Service

open Json (Bytes)
open Effects
open AiSnapshot.Companion (Provider ProviderError)

variable {s t : Service} {definitions : Definitions}

variable {id : Bytes} {definition : Definition}

theorem next_eq_some :
    definitions.next id = some definition ↔ definition ∈ definitions.list ∧ definition.id = id := by
  unfold Definitions.next
  constructor
  · intro h
    exact ⟨List.mem_of_find?_eq_some h, by simpa using List.find?_some h⟩
  · rintro ⟨hmem, rfl⟩
    cases hfind : definitions.list.find? fun other => other.id = definition.id with
    | none =>
      have hnone := List.find?_eq_none.mp hfind definition hmem
      simp at hnone
    | some other =>
      have hother := List.mem_of_find?_eq_some hfind
      have hid : other.id = definition.id := by simpa using List.find?_some hfind
      rw [List.inj_on_of_nodup_map definitions.unique hother hmem hid]

/-- The publisher is given the definitions in their order, and each page was produced for its own. -/
def Faithful (publication : Publication) : Prop :=
  publication.order = publication.definitions.list.map Definition.id ∧
    ∀ id page, (id, page) ∈ publication.pages →
      publication.definitions.next id = some page.definition

/-- The runs, the collectors and the events, where `definitions` are those of the runs. -/
structure Supervised (definitions : Definitions) (s : Service) : Prop where
  run_next : ∀ id run, s.runs id = some run → definitions.next id = some run.definition
  run_le : ∀ id run, s.runs id = some run → run.generation ≤ s.generation
  collector_le : ∀ collector ∈ s.collectors, collector.generation ≤ s.generation
  event_le : ∀ event ∈ s.events, event.generation ≤ s.generation
  run_collector : ∀ collector ∈ s.collectors, ∀ id run, s.runs id = some run →
    run.generation = collector.generation → collector.definition = run.definition
  publishing : ∀ collector ∈ s.collectors, ∀ page, collector.phase = .publishing page →
    page.definition = collector.definition
  run_event : ∀ event ∈ s.events, ∀ page, event.page = some page → ∀ id run,
    s.runs id = some run → run.generation = event.generation → page.definition = run.definition

theorem Supervised.of_eq (h : Supervised definitions s) (hruns : t.runs = s.runs)
    (hgeneration : t.generation = s.generation) (hcollectors : t.collectors = s.collectors)
    (hevents : t.events = s.events) : Supervised definitions t := by
  constructor
  · rw [hruns]
    exact h.run_next
  · rw [hruns, hgeneration]
    exact h.run_le
  · rw [hcollectors, hgeneration]
    exact h.collector_le
  · rw [hevents, hgeneration]
    exact h.event_le
  · rw [hcollectors, hruns]
    exact h.run_collector
  · rw [hcollectors]
    exact h.publishing
  · rw [hevents, hruns]
    exact h.run_event

/-- What holds in every state. -/
structure Current (s : Service) : Prop where
  supervised : Supervised s.seen s
  order : s.order = s.seen.list.map Definition.id
  page_seen : ∀ definition ∈ s.seen.list, ∀ page, s.states definition.id = some page →
    page.definition = definition
  published : ∀ publication ∈ s.published, Faithful publication

/-- A state without a run, that was produced for another definition than the stored one, and whose
collector can be started now. -/
def Leftover (s : Service) : Event → Prop
  | .reconcile starts _ => ∃ definition ∈ s.document.list, s.runs definition.id = none ∧
      starts definition.id = true ∧
        ∃ page ∈ s.states definition.id, page.definition ≠ definition
  | _ => False

instance (s : Service) (event : Event) : Decidable (s.Leftover event) := by
  cases event <;> unfold Leftover <;> infer_instance

/-! ### `reconcile` -/

/-- The state of a definition is its own, or it is about to be overwritten. -/
def Fits (starts : Bytes → Bool) (s : Service) (definition : Definition) : Prop :=
  ∀ page, s.states definition.id = some page →
    page.definition = definition ∨ (s.runs definition.id = none ∧ starts definition.id = false)

theorem start_other {starts : Bytes → Bool} {definition : Definition} {id : Bytes}
    (hne : id ≠ definition.id) :
    (start starts s definition).states id = s.states id ∧
      (start starts s definition).runs id = s.runs id := by
  unfold start
  split
  · exact ⟨rfl, rfl⟩
  · split
    · exact ⟨rfl, Function.update_of_ne hne _ _⟩
    · exact ⟨Function.update_of_ne hne _ _, rfl⟩

variable {starts : Bytes → Bool}

theorem start_own (h : Fits starts s definition) (page : Page)
    (hpage : (start starts s definition).states definition.id = some page) :
    page.definition = definition := by
  unfold start at hpage
  split at hpage
  · next hrun =>
    rcases h page hpage with hown | ⟨hnone, -⟩
    · exact hown
    · rw [hnone] at hrun
      cases hrun
  · split at hpage
    · next hstarts =>
      rcases h page hpage with hown | ⟨-, hnot⟩
      · exact hown
      · rw [hstarts] at hnot
        cases hnot
    · simp only [Function.update_self] at hpage
      rw [← Option.some.inj hpage]
      rfl

theorem startAll_own {list : List Definition}
    (hunique : (list.map Definition.id).Nodup)
    (hfits : ∀ definition ∈ list, Fits starts s definition) :
    (∀ definition ∈ list, ∀ page, (list.foldl (start starts) s).states definition.id = some page →
      page.definition = definition) ∧
    ∀ id, id ∉ list.map Definition.id →
      (list.foldl (start starts) s).states id = s.states id := by
  induction list generalizing s with
  | nil => exact ⟨by simp, fun _ _ => rfl⟩
  | cons first rest ih =>
    rw [List.map_cons, List.nodup_cons] at hunique
    obtain ⟨hfirst, hrest⟩ := hunique
    have hne : ∀ definition ∈ rest, definition.id ≠ first.id := by
      intro definition hmem hsame
      exact hfirst (hsame ▸ List.mem_map_of_mem hmem)
    have hnext : ∀ definition ∈ rest, Fits starts (start starts s first) definition := by
      intro definition hmem page hpage
      obtain ⟨hstates, hruns⟩ := @start_other s starts first definition.id (hne definition hmem)
      rw [hruns]
      rw [hstates] at hpage
      exact hfits definition (List.mem_cons_of_mem _ hmem) page hpage
    obtain ⟨hown, hother⟩ := ih hrest hnext
    rw [List.foldl_cons]
    refine ⟨fun definition hmem page hpage => ?_, fun id hid => ?_⟩
    · rcases List.mem_cons.mp hmem with rfl | hmem
      · rw [hother _ hfirst] at hpage
        exact start_own (hfits _ List.mem_cons_self) page hpage
      · exact hown definition hmem page hpage
    · rw [List.map_cons, List.mem_cons, not_or] at hid
      rw [hother id hid.2]
      exact (start_other hid.1).1

theorem Supervised.start (h : Supervised definitions s) (hmem : definition ∈ definitions.list) :
    Supervised definitions (Service.start starts s definition) := by
  unfold Service.start
  split
  · exact h
  split
  · have hupdate : ∀ id run, Function.update s.runs definition.id
        (some ⟨s.generation + 1, definition⟩) id = some run →
        (id = definition.id ∧ run = ⟨s.generation + 1, definition⟩) ∨ s.runs id = some run := by
      intro id run hrun
      by_cases hid : id = definition.id
      · rw [hid, Function.update_self] at hrun
        exact .inl ⟨hid, (Option.some.inj hrun).symm⟩
      · rw [Function.update_of_ne hid] at hrun
        exact .inr hrun
    constructor
    · intro id run hrun
      rcases hupdate id run hrun with ⟨rfl, rfl⟩ | hrun
      · exact next_eq_some.mpr ⟨hmem, rfl⟩
      · exact h.run_next id run hrun
    · intro id run hrun
      rcases hupdate id run hrun with ⟨rfl, rfl⟩ | hrun
      · exact Nat.le_refl _
      · exact Nat.le_succ_of_le (h.run_le id run hrun)
    · intro collector hcollector
      rcases List.mem_append.mp hcollector with hcollector | hcollector
      · exact Nat.le_succ_of_le (h.collector_le collector hcollector)
      · rw [List.mem_singleton.mp hcollector]
    · exact fun event hevent => Nat.le_succ_of_le (h.event_le event hevent)
    · -- The generation of the new run is new, so only the new collector has it.
      intro collector hcollector id run hrun hgeneration
      rcases List.mem_append.mp hcollector with hcollector | hcollector
      · rcases hupdate id run hrun with ⟨rfl, rfl⟩ | hrun
        · have hle := h.collector_le collector hcollector
          change s.generation + 1 = collector.generation at hgeneration
          omega
        · exact h.run_collector collector hcollector id run hrun hgeneration
      · rw [List.mem_singleton.mp hcollector] at hgeneration ⊢
        rcases hupdate id run hrun with ⟨rfl, rfl⟩ | hrun
        · rfl
        · have hle := h.run_le id run hrun
          change run.generation = s.generation + 1 at hgeneration
          omega
    · intro collector hcollector page hphase
      rcases List.mem_append.mp hcollector with hcollector | hcollector
      · exact h.publishing collector hcollector page hphase
      · rw [List.mem_singleton.mp hcollector] at hphase
        cases hphase
    · intro event hevent page hpage id run hrun hgeneration
      rcases hupdate id run hrun with ⟨rfl, rfl⟩ | hrun
      · have hle := h.event_le event hevent
        change s.generation + 1 = event.generation at hgeneration
        omega
      · exact h.run_event event hevent page hpage id run hrun hgeneration
  · exact h.of_eq rfl rfl rfl rfl

theorem Supervised.startAll (starts : Bytes → Bool) (list : List Definition)
    (h : Supervised definitions s) (hlist : ∀ definition ∈ list, definition ∈ definitions.list) :
    Supervised definitions (list.foldl (Service.start starts) s) := by
  induction list generalizing s with
  | nil => exact h
  | cons first rest ih =>
    rw [List.foldl_cons]
    refine ih (h.start (hlist first List.mem_cons_self)) fun definition hmem => ?_
    exact hlist definition (List.mem_cons_of_mem _ hmem)

variable {run : CollectorRun}

theorem supersede_runs (h : (s.supersede definitions).runs id = some run) :
    s.runs id = some run ∧ definitions.next id = some run.definition := by
  simp only [supersede] at h
  split at h
  · cases h
  · next hgone =>
    refine ⟨h, ?_⟩
    simp only [h, Option.isSome_some, Bool.true_and, kept, Bool.not_eq_true',
      decide_eq_false_iff_not, not_not] at hgone
    exact hgone

theorem mem_supersede {collector : Collector} (h : collector ∈ (s.supersede definitions).collectors) :
    ∃ old ∈ s.collectors, collector.generation = old.generation ∧
      collector.definition = old.definition ∧ collector.phase = old.phase := by
  obtain ⟨old, hold, rfl⟩ := List.mem_map.mp h
  refine ⟨old, hold, ?_⟩
  split <;> exact ⟨rfl, rfl, rfl⟩

theorem Supervised.supersede {old : Definitions} (h : Supervised old s) :
    Supervised definitions (s.supersede definitions) := by
  constructor
  · exact fun id run hrun => (supersede_runs hrun).2
  · exact fun id run hrun => h.run_le id run (supersede_runs hrun).1
  · intro collector hcollector
    obtain ⟨before, hbefore, hgeneration, -, -⟩ := mem_supersede hcollector
    rw [hgeneration]
    exact h.collector_le before hbefore
  · exact h.event_le
  · intro collector hcollector id run hrun hgeneration
    obtain ⟨before, hbefore, hsame, hdefinition, -⟩ := mem_supersede hcollector
    rw [hdefinition]
    exact h.run_collector before hbefore id run (supersede_runs hrun).1 (hgeneration.trans hsame)
  · intro collector hcollector page hphase
    obtain ⟨before, hbefore, -, hdefinition, hbeforephase⟩ := mem_supersede hcollector
    rw [hdefinition]
    exact h.publishing before hbefore page (hbeforephase ▸ hphase)
  · exact fun event hevent page hpage id run hrun =>
      h.run_event event hevent page hpage id run (supersede_runs hrun).1

variable {accepted : Bool}

theorem Current.fits (h : Current s)
    (hleftover : ¬s.Leftover (.reconcile starts accepted)) (changed : Bool) :
    ∀ definition ∈ s.document.list,
      Fits starts { s.supersede s.document with changed := changed } definition := by
  intro definition hmem page hpage
  simp only [Service.supersede] at hpage
  cases hrun : s.runs definition.id with
  | none =>
    simp only [hrun, Option.isSome_none, Bool.false_and, Bool.false_eq_true, if_false] at hpage
    by_cases hown : page.definition = definition
    · exact .inl hown
    · refine .inr ⟨?_, ?_⟩
      · simp only [Service.supersede, hrun]
        simp
      · rw [← Bool.not_eq_true]
        exact fun hstarts => hleftover ⟨definition, hmem, hrun, hstarts, page, hpage, hown⟩
  | some run =>
    split at hpage
    · cases hpage
    · next hgone =>
      have hnext : s.document.next definition.id = some run.definition := by
        simp only [hrun, Option.isSome_some, Bool.true_and, kept, Bool.not_eq_true',
          decide_eq_false_iff_not, not_not] at hgone
        exact hgone
      have hsame : run.definition = definition :=
        Option.some.inj (hnext.symm.trans (next_eq_some.mpr ⟨hmem, rfl⟩))
      have hseen := next_eq_some.mp (h.supervised.run_next _ run hrun)
      left
      rw [← hsame]
      refine h.page_seen run.definition hseen.1 page ?_
      rwa [hsame]

theorem faithful_publish {definitions : Definitions} {states : Bytes → Option Page}
    (h : ∀ definition ∈ definitions.list, ∀ page, states definition.id = some page →
      page.definition = definition) :
    Faithful
      { definitions
        order := definitions.list.map Definition.id
        pages := (definitions.list.map Definition.id).filterMap fun id =>
          (states id).map fun page => (id, page) } := by
  refine ⟨rfl, fun id page hmem => ?_⟩
  obtain ⟨other, hother, hpage⟩ := List.mem_filterMap.mp hmem
  obtain ⟨found, hfound, heq⟩ := Option.map_eq_some_iff.mp hpage
  cases heq
  obtain ⟨definition, hdefinition, rfl⟩ := List.mem_map.mp hother
  rw [h definition hdefinition page hfound]
  exact next_eq_some.mpr ⟨hdefinition, rfl⟩

theorem Current.publishState (h : Current s) : Current s.publishState := by
  refine ⟨h.supervised.of_eq rfl rfl rfl rfl, h.order, h.page_seen, fun publication hmem => ?_⟩
  rcases List.mem_append.mp hmem with hmem | hmem
  · exact h.published publication hmem
  · rw [List.mem_singleton.mp hmem, h.order]
    exact faithful_publish h.page_seen

theorem startAll_published (list : List Definition) (s : Service) :
    (list.foldl (start starts) s).published = s.published := by
  induction list generalizing s with
  | nil => rfl
  | cons first rest ih =>
    rw [List.foldl_cons, ih]
    unfold start
    split
    · rfl
    · split <;> rfl

theorem Current.reconcile (h : Current s) (hleftover : ¬s.Leftover (.reconcile starts accepted))
    (hstep : s.reconcile starts accepted = some t) : Current t := by
  unfold Service.reconcile at hstep
  split at hstep
  · obtain rfl := Option.some.inj hstep
    have hsupersede : Supervised s.document { s.supersede s.document with changed := false } :=
      h.supervised.supersede.of_eq rfl rfl rfl rfl
    have hstart := hsupersede.startAll starts s.document.list fun _ hmem => hmem
    obtain ⟨hown, -⟩ := startAll_own s.document.unique (h.fits hleftover false)
    have hcurrent : Current
        { s.document.list.foldl (Service.start starts)
            { s.supersede s.document with changed := false } with
          seen := s.document
          order := s.document.list.map Definition.id } := by
      refine ⟨hstart.of_eq rfl rfl rfl rfl, rfl, hown, ?_⟩
      change ∀ publication ∈ (s.document.list.foldl (Service.start starts) _).published, _
      rw [startAll_published]
      exact h.published
    have hpublished := hcurrent.publishState
    exact ⟨hpublished.supervised.of_eq rfl rfl rfl rfl, hpublished.order, hpublished.page_seen,
      hpublished.published⟩
  · cases hstep

/-! ### Events -/

theorem Current.update_state {page : Page} (h : Current s) (hrun : s.runs id = some run)
    (hpage : page.definition = run.definition)
    (runs : Bytes → Option CollectorRun)
    (hruns : ∀ id run, runs id = some run → s.runs id = some run) :
    Current { s with runs, states := Function.update s.states id (some page) } := by
  have hseen := next_eq_some.mp (h.supervised.run_next id run hrun)
  refine ⟨?_, h.order, ?_, h.published⟩
  · constructor
    · exact fun id run hrun => h.supervised.run_next id run (hruns id run hrun)
    · exact fun id run hrun => h.supervised.run_le id run (hruns id run hrun)
    · exact h.supervised.collector_le
    · exact h.supervised.event_le
    · exact fun collector hmem id run hrun =>
        h.supervised.run_collector collector hmem id run (hruns id run hrun)
    · exact h.supervised.publishing
    · exact fun event hmem page hpage id run hrun =>
        h.supervised.run_event event hmem page hpage id run (hruns id run hrun)
  · intro definition hmem found hfound
    change Function.update s.states id (some page) definition.id = some found at hfound
    by_cases hid : definition.id = id
    · rw [hid, Function.update_self] at hfound
      rw [← Option.some.inj hfound, hpage]
      exact List.inj_on_of_nodup_map s.seen.unique hseen.1 hmem (hseen.2.trans hid.symm)
    · rw [Function.update_of_ne hid] at hfound
      exact h.page_seen definition hmem found hfound

theorem Current.cancelRun (h : Current s) (generation : ℕ) : Current (s.cancelRun generation) := by
  have hmem : ∀ collector ∈ (s.cancelRun generation).collectors, ∃ old ∈ s.collectors,
      collector.generation = old.generation ∧ collector.definition = old.definition ∧
        collector.phase = old.phase := by
    intro collector hcollector
    obtain ⟨old, hold, rfl⟩ := List.mem_map.mp hcollector
    refine ⟨old, hold, ?_⟩
    split <;> exact ⟨rfl, rfl, rfl⟩
  refine ⟨?_, h.order, h.page_seen, h.published⟩
  constructor
  · exact h.supervised.run_next
  · exact h.supervised.run_le
  · intro collector hcollector
    obtain ⟨old, hold, hgeneration, -, -⟩ := hmem collector hcollector
    rw [hgeneration]
    exact h.supervised.collector_le old hold
  · exact h.supervised.event_le
  · intro collector hcollector id run hrun hgeneration
    obtain ⟨old, hold, hsame, hdefinition, -⟩ := hmem collector hcollector
    rw [hdefinition]
    exact h.supervised.run_collector old hold id run hrun (hgeneration.trans hsame)
  · intro collector hcollector page hphase
    obtain ⟨old, hold, -, hdefinition, hsame⟩ := hmem collector hcollector
    rw [hdefinition]
    exact h.supervised.publishing old hold page (hsame ▸ hphase)
  · exact h.supervised.run_event

theorem Current.accept {event : CollectorEvent} (h : Current s) (hrun : s.runs event.id = some run)
    (hevent : ∀ page, event.page = some page → page.definition = run.definition) :
    Current (s.accept run event accepted) := by
  unfold Service.accept
  split
  · next page hpage =>
    have hstate := (h.update_state hrun (hevent page hpage) s.runs fun _ _ hr => hr).publishState
    dsimp only
    split
    · exact hstate
    · exact hstate.cancelRun run.generation
  · have hgone : ∀ id run', Function.update s.runs event.id none id = some run' →
        s.runs id = some run' := by
      intro id run' hrun'
      by_cases hid : id = event.id
      · rw [hid, Function.update_self] at hrun'
        cases hrun'
      · rwa [Function.update_of_ne hid] at hrun'
    dsimp only
    split
    · exact (h.update_state hrun
        (rfl : (placeholder run.definition).definition = run.definition) _ hgone).publishState
    · refine ⟨?_, h.order, h.page_seen, h.published⟩
      constructor
      · exact fun id run hrun => h.supervised.run_next id run (hgone id run hrun)
      · exact fun id run hrun => h.supervised.run_le id run (hgone id run hrun)
      · exact h.supervised.collector_le
      · exact h.supervised.event_le
      · exact fun collector hmem id run hrun =>
          h.supervised.run_collector collector hmem id run (hgone id run hrun)
      · exact h.supervised.publishing
      · exact fun event hmem page hpage id run hrun =>
          h.supervised.run_event event hmem page hpage id run (hgone id run hrun)

theorem Current.handle (h : Current s) (hstep : s.handle accepted = some t) :
    Current t := by
  unfold Service.handle at hstep
  split at hstep
  · next event events _ hevents =>
    have hrest : Current { s with events } := by
      refine ⟨?_, h.order, h.page_seen, h.published⟩
      have hmem : ∀ other ∈ events, other ∈ s.events := by
        intro other hother
        rw [hevents]
        exact List.mem_cons_of_mem _ hother
      exact ⟨h.supervised.run_next, h.supervised.run_le, h.supervised.collector_le,
        fun other hother => h.supervised.event_le other (hmem other hother),
        h.supervised.run_collector, h.supervised.publishing,
        fun other hother => h.supervised.run_event other (hmem other hother)⟩
    have hhead : event ∈ s.events := by
      rw [hevents]
      exact List.mem_cons_self
    dsimp only at hstep
    cases hrun : s.runs event.id with
    | none =>
      rw [hrun] at hstep
      obtain rfl := Option.some.inj hstep
      exact hrest
    | some run =>
      rw [hrun] at hstep
      dsimp only at hstep
      by_cases hgeneration : run.generation = event.generation
      · rw [if_neg (not_not.mpr hgeneration)] at hstep
        obtain rfl := Option.some.inj hstep
        exact hrest.accept hrun fun page hpage =>
          h.supervised.run_event event hhead page hpage event.id run hrun hgeneration
      · rw [if_pos hgeneration] at hstep
        obtain rfl := Option.some.inj hstep
        exact hrest
  · cases hstep

/-! ### Collectors -/

variable {key : ℕ}

theorem Current.replace {old new : Collector} (h : Current s) (hold : s.collectors[key]? = some old)
    (hgeneration : new.generation = old.generation)
    (hdefinition : new.definition = old.definition)
    (hphase : ∀ page, new.phase = .publishing page → page.definition = old.definition) :
    Current (s.replace key new) := by
  have hmem := List.mem_of_getElem? hold
  have hcases : ∀ collector ∈ (s.replace key new).collectors,
      collector ∈ s.collectors ∨ collector = new :=
    fun collector hcollector => List.mem_or_eq_of_mem_set hcollector
  refine ⟨?_, h.order, h.page_seen, h.published⟩
  constructor
  · exact h.supervised.run_next
  · exact h.supervised.run_le
  · intro collector hcollector
    rcases hcases collector hcollector with hcollector | rfl
    · exact h.supervised.collector_le collector hcollector
    · rw [hgeneration]
      exact h.supervised.collector_le old hmem
  · exact h.supervised.event_le
  · intro collector hcollector id run hrun hsame
    rcases hcases collector hcollector with hcollector | rfl
    · exact h.supervised.run_collector collector hcollector id run hrun hsame
    · rw [hdefinition]
      exact h.supervised.run_collector old hmem id run hrun (hsame.trans hgeneration)
  · intro collector hcollector page hpage
    rcases hcases collector hcollector with hcollector | rfl
    · exact h.supervised.publishing collector hcollector page hpage
    · rw [hdefinition]
      exact hphase page hpage
  · exact h.supervised.run_event

theorem collectRetained_same (collector : Collector) (result : Except ProviderError Provider) :
    (collector.collectRetained result).2.generation = collector.generation ∧
      (collector.collectRetained result).2.definition = collector.definition := by
  unfold Collector.collectRetained
  split
  · exact ⟨rfl, rfl⟩
  · split <;> exact ⟨rfl, rfl⟩

theorem Current.collect {result : Except ProviderError Provider} (h : Current s)
    (hstep : s.collect key result = some t) : Current t := by
  unfold Service.collect at hstep
  split at hstep
  · cases hstep
  next collector hfound =>
    split at hstep
    · split at hstep
      · obtain rfl := Option.some.inj hstep
        exact h.replace hfound rfl rfl (by simp)
      · obtain rfl := Option.some.inj hstep
        obtain ⟨hgeneration, hdefinition⟩ := collectRetained_same collector result
        refine h.replace hfound hgeneration hdefinition fun page hpage => ?_
        cases hpage
        rfl
    · cases hstep

theorem Current.send {collector : Collector} {page : Option Page} {failed : Bool} (h : Current s)
    (hmem : collector ∈ s.collectors)
    (hpage : ∀ found, page = some found → found.definition = collector.definition) :
    Current (s.send collector page failed) := by
  refine ⟨?_, h.order, h.page_seen, h.published⟩
  constructor
  · exact h.supervised.run_next
  · exact h.supervised.run_le
  · exact h.supervised.collector_le
  · intro event hevent
    rcases List.mem_append.mp hevent with hevent | hevent
    · exact h.supervised.event_le event hevent
    · rw [List.mem_singleton.mp hevent]
      exact h.supervised.collector_le collector hmem
  · exact h.supervised.run_collector
  · exact h.supervised.publishing
  · intro event hevent found hfound id run hrun hgeneration
    rcases List.mem_append.mp hevent with hevent | hevent
    · exact h.supervised.run_event event hevent found hfound id run hrun hgeneration
    · rw [List.mem_singleton.mp hevent] at hfound hgeneration
      rw [hpage found hfound]
      exact h.supervised.run_collector collector hmem id run hrun hgeneration

theorem Current.deliver (h : Current s) (hstep : s.deliver key = some t) :
    Current t := by
  unfold Service.deliver at hstep
  split at hstep
  · split at hstep
    · cases hstep
    next collector hfound =>
      have hmem := List.mem_of_getElem? hfound
      split at hstep
      · next page hphase =>
        obtain rfl := Option.some.inj hstep
        have hsent : Current (s.send collector (some page) false) := by
          refine h.send hmem fun found hpage => ?_
          cases hpage
          exact h.supervised.publishing collector hmem page hphase
        exact hsent.replace hfound rfl rfl (by simp)
      · obtain rfl := Option.some.inj hstep
        exact (h.send hmem (by simp)).replace hfound rfl rfl (by simp)
      · cases hstep
  · cases hstep

theorem Current.exit {failed : Bool} (h : Current s) (hstep : s.exit key failed = some t) :
    Current t := by
  unfold Service.exit at hstep
  split at hstep
  · cases hstep
  next collector hfound =>
    split at hstep
    · obtain rfl := Option.some.inj hstep
      exact h.replace hfound rfl rfl (by simp)
    · obtain rfl := Option.some.inj hstep
      exact h.replace hfound rfl rfl (by simp)
    · cases hstep

theorem Current.step {event : Event} (h : Current s) (hleftover : ¬s.Leftover event)
    (hstep : s.step event = some t) : Current t := by
  cases event with
  | edit definitions =>
    obtain rfl := Option.some.inj hstep
    exact ⟨h.supervised.of_eq rfl rfl rfl rfl, h.order, h.page_seen, h.published⟩
  | notifyChanged =>
    obtain rfl := Option.some.inj hstep
    exact ⟨h.supervised.of_eq rfl rfl rfl rfl, h.order, h.page_seen, h.published⟩
  | cancel =>
    obtain rfl := Option.some.inj hstep
    exact ⟨h.supervised.of_eq rfl rfl rfl rfl, h.order, h.page_seen, h.published⟩
  | reconcile starts accepted => exact h.reconcile hleftover hstep
  | handle accepted => exact h.handle hstep
  | stop =>
    simp only [Service.step, Service.stop] at hstep
    split at hstep
    · cases hstep
    · obtain rfl := Option.some.inj hstep
      exact ⟨h.supervised.of_eq rfl rfl rfl rfl, h.order, h.page_seen, h.published⟩
  | collect key result => exact h.collect hstep
  | deliver key => exact h.deliver hstep
  | exit key failed => exact h.exit hstep

/-! ### Collectors that were superseded or have ended -/

/-- The runs of `t` are those of `s`, or later. -/
structure Later (s t : Service) : Prop where
  generation_le : s.generation ≤ t.generation
  runs : ∀ id run, t.runs id = some run → s.runs id = some run ∨ s.generation < run.generation

theorem Later.of_runs (hgeneration : s.generation = t.generation)
    (h : ∀ id run, t.runs id = some run → s.runs id = some run) : Later s t :=
  ⟨Nat.le_of_eq hgeneration, fun id run hrun => .inl (h id run hrun)⟩

theorem Later.trans {u : Service} (h : Later s t) (h' : Later t u) : Later s u := by
  constructor
  · exact Nat.le_trans h.generation_le h'.generation_le
  · intro id run hrun
    rcases h'.runs id run hrun with hrun | hlt
    · exact h.runs id run hrun
    · exact .inr (Nat.lt_of_le_of_lt h.generation_le hlt)

theorem handle_eq (h : s.handle accepted = some t) :
    ∃ event events, s.events = event :: events ∧
      (((∀ run, s.runs event.id = some run → run.generation ≠ event.generation) ∧
          t = { s with events }) ∨
        ∃ run, s.runs event.id = some run ∧ run.generation = event.generation ∧
          t = { s with events }.accept run event accepted) := by
  unfold Service.handle at h
  split at h
  · next event events _ hevents =>
    refine ⟨event, events, hevents, ?_⟩
    dsimp only at h
    cases hrun : s.runs event.id with
    | none =>
      rw [hrun] at h
      exact .inl ⟨by simp, (Option.some.inj h).symm⟩
    | some run =>
      rw [hrun] at h
      dsimp only at h
      by_cases hgeneration : run.generation = event.generation
      · rw [if_neg (not_not.mpr hgeneration)] at h
        exact .inr ⟨run, rfl, hgeneration, (Option.some.inj h).symm⟩
      · rw [if_pos hgeneration] at h
        refine .inl ⟨fun other hother => ?_, (Option.some.inj h).symm⟩
        rwa [← Option.some.inj hother]
  · cases h

theorem accept_later (s : Service) (run : CollectorRun) (event : CollectorEvent) (accepted : Bool) :
    Later s (s.accept run event accepted) := by
  have hgone : ∀ id run', Function.update s.runs event.id none id = some run' →
      s.runs id = some run' := by
    intro id run' hrun'
    by_cases hid : id = event.id
    · rw [hid, Function.update_self] at hrun'
      cases hrun'
    · rwa [Function.update_of_ne hid] at hrun'
  unfold Service.accept
  split
  · dsimp only
    split
    · exact Later.of_runs rfl fun _ _ hrun => hrun
    · exact Later.of_runs rfl fun _ _ hrun => hrun
  · dsimp only
    split
    · exact Later.of_runs rfl hgone
    · exact Later.of_runs rfl hgone

def sampleDefinition : Definition where
  id := [97]
  displayName := [65]
  experimental := false
  request := ⟨[], [], none, []⟩
  mapping := ⟨[], [], [], [], [], [], 1, [], []⟩
  refreshMinutes := 5
  requestTimeoutSeconds := 10
  maximumResponseBytes := 1024

/-- A Provider that a collector of the sample has collected. -/
def sampleProvider : Provider := (placeholder sampleDefinition).provider

end RlcdDeck.StructuredProvider.Service

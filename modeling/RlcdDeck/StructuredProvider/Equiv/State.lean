import RlcdDeck.StructuredProvider.Equiv.Normalize

/-!
# Valid states of the definition store

`validateState` as a proposition (`Valid`), and what the mutations that stage a reference and
publish a new definition make of a valid state.
-/

namespace RlcdDeck.StructuredProvider

open Json (Bytes)
open ConfigModel (Network validateWebSettings validateSerialPresets)
open SecretStore (Reference validReference)

/-! ### Sets of references -/

variable {reference : Reference}

theorem mem_sortedReferences {set : List Reference} :
    reference ∈ sortedReferences set ↔ reference ∈ set := by
  unfold sortedReferences
  rw [(List.perm_insertionSort _ _).mem_iff, List.mem_dedup]

theorem nodup_sortedReferences (set : List Reference) : (sortedReferences set).Nodup :=
  (List.perm_insertionSort _ _).nodup_iff.mpr (List.nodup_dedup set)

theorem length_sortedReferences_le (set : List Reference) :
    (sortedReferences set).length ≤ set.length := by
  unfold sortedReferences
  rw [(List.perm_insertionSort _ _).length_eq]
  exact (List.dedup_sublist set).length_le

variable {references : List Reference}

theorem mem_without {set : List Reference} :
    reference ∈ without set references ↔ reference ∈ set ∧ reference ∉ references := by
  simp [without]

variable {active out : List Reference}

theorem claimReferences_eq_some :
    claimReferences active references = some out ↔
      references.Nodup ∧ (∀ reference ∈ references, reference ∉ active) ∧
        out = references.reverse ++ active := by
  induction references generalizing active with
  | nil => simp [claimReferences, eq_comm]
  | cons reference references ih =>
    unfold claimReferences
    by_cases h : reference ∈ active
    · simp [h]
    · rw [if_neg (by simpa using h), ih]
      simp only [List.nodup_cons, List.mem_cons, forall_eq_or_imp, List.reverse_cons,
        List.append_assoc, List.singleton_append, not_or]
      constructor
      · rintro ⟨hnodup, hactive, rfl⟩
        exact ⟨⟨fun hmem => (hactive _ hmem).1 rfl, hnodup⟩, ⟨h, fun r hr => (hactive r hr).2⟩, rfl⟩
      · rintro ⟨⟨hnew, hnodup⟩, ⟨_, hactive⟩, rfl⟩
        exact ⟨hnodup, fun r hr => ⟨fun heq => hnew (heq ▸ hr), hactive r hr⟩, rfl⟩

theorem definitionReferences_cons (definition : Definition) (definitions : List Definition) :
    definitionReferences (definition :: definitions) =
      definitionReferences [definition] ++ definitionReferences definitions := by
  simp [definitionReferences]

theorem definitionReferences_append (definitions definitions' : List Definition) :
    definitionReferences (definitions ++ definitions') =
      definitionReferences definitions ++ definitionReferences definitions' := by
  simp [definitionReferences]

/-! ### Valid states -/

/-- `normalizeConfig` accepts the definition and leaves it as it is. -/
def Normalized (network : Network) (definition : Definition) : Prop :=
  ∃ n, normalizeConfig network definition = .ok n ∧ n.definition = definition

variable {network : Network} {definition : Definition}

theorem normalized_iff {n : NormalizedConfig} (h : normalizeConfig network definition = .ok n) :
    Normalized network definition ↔ n.definition = definition := by
  constructor
  · rintro ⟨n', h', hsame⟩
    rwa [Except.ok.inj (h.symm.trans h')]
  · exact fun hsame => ⟨n, h, hsame⟩

/-- One definition of the loop. -/
theorem validateDefinitions_cons {ids : List Bytes} {definitions : List Definition} :
    validateDefinitions network ids active (definition :: definitions) = some out ↔
      Normalized network definition ∧ definition.id ∉ ids ∧
        ∃ claimed, claimReferences active (definitionReferences [definition]) = some claimed ∧
          validateDefinitions network (definition.id :: ids) claimed definitions = some out := by
  rw [validateDefinitions]
  cases h : normalizeConfig network definition with
  | error failure =>
    have hnot : ¬ Normalized network definition := by
      rintro ⟨n, hn, -⟩
      rw [h] at hn
      cases hn
    simp [hnot]
  | ok n =>
    dsimp only
    rw [normalized_iff h]
    by_cases hsame : n.definition = definition
    · by_cases hid : definition.id ∈ ids
      · simp [hid]
      · rw [if_neg (by simp [hsame, hid]), Option.bind_eq_some_iff]
        simp [hsame, hid]
    · simp [hsame]

theorem validateDefinitions_eq_some {ids : List Bytes} {definitions : List Definition} :
    validateDefinitions network ids active definitions = some out ↔
      (∀ definition ∈ definitions, Normalized network definition) ∧
      (definitions.map Definition.id).Nodup ∧ (∀ definition ∈ definitions, definition.id ∉ ids) ∧
      (definitionReferences definitions).Nodup ∧
      (∀ reference ∈ definitionReferences definitions, reference ∉ active) ∧
      out = (definitionReferences definitions).reverse ++ active := by
  induction definitions generalizing ids active with
  | nil => simp [validateDefinitions, definitionReferences, eq_comm]
  | cons definition definitions ih =>
    rw [validateDefinitions_cons, definitionReferences_cons definition definitions]
    simp only [ih, claimReferences_eq_some]
    constructor
    · rintro ⟨hsame, hid, _, ⟨hclaim, hactive, rfl⟩, hall, hnodup, hids, hreferences, hfresh, rfl⟩
      refine ⟨List.forall_mem_cons.mpr ⟨hsame, hall⟩, ?_, ?_, ?_, ?_, ?_⟩
      · rw [List.map_cons, List.nodup_cons]
        refine ⟨fun hmem => ?_, hnodup⟩
        obtain ⟨other, hother, hid'⟩ := List.mem_map.mp hmem
        exact hids other hother (hid' ▸ List.mem_cons_self)
      · rintro other hother hmem
        rcases List.mem_cons.mp hother with rfl | hother
        · exact hid hmem
        · exact hids other hother (List.mem_cons_of_mem _ hmem)
      · rw [List.nodup_append]
        refine ⟨hclaim, hreferences, fun r hr r' hr' heq => hfresh r' hr' ?_⟩
        subst heq
        exact List.mem_append_left _ (List.mem_reverse.mpr hr)
      · intro r hr hmem
        rcases List.mem_append.mp hr with hr | hr
        · exact hactive r hr hmem
        · exact hfresh r hr (List.mem_append_right _ hmem)
      · simp
    · rintro ⟨hall, hnodup, hids, hreferences, hfresh, rfl⟩
      rw [List.forall_mem_cons] at hall hids
      rw [List.map_cons, List.nodup_cons] at hnodup
      rw [List.nodup_append] at hreferences
      obtain ⟨hclaim, hrest, hdisjoint⟩ := hreferences
      refine ⟨hall.1, hids.1, _, ⟨hclaim, fun r hr => hfresh r (List.mem_append_left _ hr), rfl⟩,
        hall.2, hnodup.2, ?_, hrest, ?_, by simp⟩
      · intro other hother hmem
        rcases List.mem_cons.mp hmem with heq | hmem
        · exact hnodup.1 (List.mem_map.mpr ⟨other, hother, heq⟩)
        · exact hids.2 other hother hmem
      · intro r hr hmem
        rcases List.mem_append.mp hmem with hmem | hmem
        · exact hdisjoint r (List.mem_reverse.mp hmem) r hr rfl
        · exact hfresh r (List.mem_append_right _ hr) hmem

theorem validatePending_iff {pending : List Reference} :
    validatePending active pending references = true ↔
      (∀ reference ∈ references,
        validReference reference = true ∧ reference ∉ active ∧ reference ∉ pending) ∧
        references.Nodup := by
  induction references generalizing pending with
  | nil => simp [validatePending]
  | cons reference references ih =>
    unfold validatePending
    rw [Bool.and_eq_true, ih, List.forall_mem_cons]
    simp only [Bool.and_eq_true, Bool.not_eq_true', List.contains_eq_mem, decide_eq_false_iff_not,
      List.mem_cons, not_or, List.nodup_cons]
    constructor
    · rintro ⟨⟨⟨hvalid, hactive⟩, hpending⟩, hall, hnodup⟩
      exact ⟨⟨⟨hvalid, hactive, hpending⟩, fun r hr => ⟨(hall r hr).1, (hall r hr).2.1,
        (hall r hr).2.2.2⟩⟩, fun hmem => (hall _ hmem).2.2.1 rfl, hnodup⟩
    · rintro ⟨⟨⟨hvalid, hactive, hpending⟩, hall⟩, hnew, hnodup⟩
      exact ⟨⟨⟨hvalid, hactive⟩, hpending⟩, fun r hr => ⟨(hall r hr).1, (hall r hr).2.1,
        fun heq => hnew (heq ▸ hr), (hall r hr).2.2⟩, hnodup⟩

/-- `validateDefinitionStoreState`, as what holds of a state. -/
structure Valid (network : Network) (state : State) : Prop where
  schema : state.schemaVersion = definitionStoreSchemaVersion
  room : state.definitions.length ≤ maximumStoredDefinitions
  profileRoom : state.deviceProfiles.length ≤ ConfigModel.maximumDeviceProfiles
  pendingRoom : state.pendingSecretDeletes.length ≤ maximumPendingCleanup
  web : validateWebSettings network state.webSettings = true
  presets : validateSerialPresets state.applicationSettings.serialPresets = true
  normalized : ∀ definition ∈ state.definitions, Normalized network definition
  ids : (state.definitions.map Definition.id).Nodup
  references : state.owned.Nodup
  profiles : validateProfiles [] state.deviceProfiles = true
  pending : ∀ reference ∈ state.pendingSecretDeletes,
    validReference reference = true ∧ reference ∉ state.owned
  pendingNodup : state.pendingSecretDeletes.Nodup

variable {state : State}

theorem validateState_iff :
    validateState network state = true ↔ Valid network state := by
  unfold validateState
  simp only [Bool.and_eq_true, beq_iff_eq, decide_eq_true_eq, Option.any_eq_true,
    validateDefinitions_eq_some, validatePending_iff]
  constructor
  · rintro ⟨⟨⟨⟨⟨⟨hschema, hroom⟩, hprofileRoom⟩, hpendingRoom⟩, hweb⟩, hpresets⟩, _,
      ⟨hnormalized, hids, _, hreferences, _, rfl⟩, hprofiles, hpending, hnodup⟩
    exact ⟨hschema, hroom, hprofileRoom, hpendingRoom, hweb, hpresets, hnormalized, hids,
      hreferences, hprofiles, fun r hr => ⟨(hpending r hr).1, fun hmem => (hpending r hr).2.1
        (by rw [List.append_nil]; exact List.mem_reverse.mpr hmem)⟩, hnodup⟩
  · rintro h
    refine ⟨⟨⟨⟨⟨⟨h.schema, h.room⟩, h.profileRoom⟩, h.pendingRoom⟩, h.web⟩, h.presets⟩, _,
      ⟨h.normalized, h.ids, fun _ _ => List.not_mem_nil, h.references, fun _ _ =>
        List.not_mem_nil, rfl⟩, h.profiles, fun r hr => ⟨(h.pending r hr).1, ?_,
        List.not_mem_nil⟩, h.pendingNodup⟩
    rw [List.append_nil, List.mem_reverse]
    exact (h.pending r hr).2

/-! ### Copies -/

theorem cloneDefinition_of_headers (h : definition.headers ≠ []) :
    cloneDefinition definition = definition := by
  obtain ⟨id, displayName, experimental, ⟨method, url, headers, body⟩, mapping, refresh, timeout,
    response⟩ := definition
  cases headers with
  | none => exact absurd rfl h
  | some headers =>
    change headers ≠ [] at h
    have hempty : headers.isEmpty = false := by simpa using h
    simp [cloneDefinition, Definition.headers, hempty]

theorem headers_cloneDefinition (definition : Definition) :
    (cloneDefinition definition).headers = definition.headers := by
  unfold cloneDefinition
  cases h : definition.headers with
  | nil => simp [Definition.headers]
  | cons header headers => simp [Definition.headers]

theorem owned_clone (state : State) : state.clone.owned = state.owned := by
  unfold State.owned State.clone definitionReferences
  dsimp only
  rw [List.flatMap_map]
  simp only [headers_cloneDefinition]

theorem not_normalized_cloneDefinition (h : definition.headers = []) :
    ¬ Normalized network (cloneDefinition definition) := by
  rintro ⟨n, hn, hsame⟩
  obtain ⟨headers, target, mapping, -, rfl⟩ := normalizeConfig_eq_ok.mp hn
  have hheaders := congrArg (fun d => d.request.headers) hsame
  simp [cloneDefinition, withDefaults, h] at hheaders

theorem clone_of_valid (h : Valid network state)
    (hheaders : ∀ definition ∈ state.definitions, definition.headers ≠ []) :
    state.clone = state := by
  have hsame : state.definitions.map cloneDefinition = state.definitions := by
    conv_rhs => rw [← List.map_id state.definitions]
    exact List.map_congr_left fun definition hd => cloneDefinition_of_headers (hheaders definition hd)
  unfold State.clone
  rw [hsame, ← h.schema]

/-! ### Staging and publishing -/

theorem Valid.stage (h : Valid network state) {reference : Reference}
    (hvalid : validReference reference = true)
    (howned : reference ∉ state.owned)
    (hroom : state.pendingSecretDeletes.length < maximumPendingCleanup) :
    Valid network { state with
      pendingSecretDeletes := sortedReferences (reference :: state.pendingSecretDeletes) } :=
  { h with
    pendingRoom := Nat.le_trans (length_sortedReferences_le _) hroom
    pending := fun r hr => by
      rcases List.mem_cons.mp (mem_sortedReferences.mp hr) with rfl | hr
      · exact ⟨hvalid, howned⟩
      · exact h.pending r hr
    pendingNodup := nodup_sortedReferences _ }

theorem stageCleanup_singleton (hvalid : validReference reference = true)
    (howned : reference ∉ state.owned) :
    stageCleanup [reference] state = .plain (.ok { state with
      pendingSecretDeletes := sortedReferences (reference :: state.pendingSecretDeletes) }) := by
  have hloop : stageLoop state.owned state.pendingSecretDeletes [reference] =
      .ok (reference :: state.pendingSecretDeletes) := by
    simp [stageLoop, hvalid, howned]
  unfold stageCleanup
  rw [hloop]
  rfl

theorem activate_eq_some {pending activated : List Reference} (hnodup : activated.Nodup)
    (hmem : ∀ reference ∈ activated, reference ∈ pending) :
    ∃ left, activate pending activated = some left ∧
      ∀ reference, reference ∈ left ↔ reference ∈ pending ∧ reference ∉ activated := by
  induction activated generalizing pending with
  | nil => exact ⟨pending, rfl, by simp⟩
  | cons reference activated ih =>
    rw [List.nodup_cons] at hnodup
    rw [List.forall_mem_cons] at hmem
    obtain ⟨left, hleft, hiff⟩ := @ih (without pending [reference]) hnodup.2 fun r hr =>
      mem_without.mpr ⟨hmem.2 r hr, fun heq => hnodup.1 (List.mem_singleton.mp heq ▸ hr)⟩
    refine ⟨left, ?_, fun r => ?_⟩
    · unfold activate
      rw [if_pos (by simpa using hmem.1), hleft]
    · rw [hiff, mem_without, List.mem_singleton, List.mem_cons, not_or, and_assoc]

/-- **A new definition** is published in a valid state, when its references are those that were
staged for it. -/
theorem publish_new (h : Valid network state) {definition : Definition} {created : List Reference}
    (hnormalized : Normalized network definition)
    (hheaders : definition.headers ≠ [])
    (hfresh : ∀ stored ∈ state.definitions, stored.id ≠ definition.id)
    (hroom : state.definitions.length < maximumStoredDefinitions) (hnodup : created.Nodup)
    (hcreated : ∀ reference, reference ∈ definitionReferences [definition] ↔ reference ∈ created)
    (hreferences : (definitionReferences [definition]).Nodup)
    (hstaged : ∀ reference ∈ created, reference ∈ state.pendingSecretDeletes) :
    ∃ next, publish network none definition created state = .plain (.ok next) ∧
      Valid network next ∧ next.definitions = state.definitions ++ [definition] := by
  obtain ⟨left, hleft, hiff⟩ := activate_eq_some hnodup hstaged
  have hindex : publishIndex none definition state.definitions = .ok state.definitions.length := by
    have hany : (state.definitions.any fun stored => stored.id == definition.id) = false := by
      simpa using hfresh
    simp [publishIndex, hany, hroom]
  have hothers : ((state.definitions.eraseIdx state.definitions.length).all fun stored =>
      stored.id != definition.id) = true := by
    rw [List.eraseIdx_of_length_le (Nat.le_refl _)]
    simpa using hfresh
  have hsame : (decide created.Nodup && sameSet (without (definitionReferences [definition])
      (definitionReferences (Option.toList (none : Option Definition)))) created) = true := by
    simp only [hnodup, decide_true, Bool.true_and, sameSet, Bool.and_eq_true, List.all_eq_true,
      List.contains_iff_mem, mem_without, Option.toList_none]
    exact ⟨fun r hr => (hcreated r).mp hr.1,
      fun r hr => ⟨(hcreated r).mpr hr, List.not_mem_nil⟩⟩
  obtain ⟨n, hn, hndef⟩ := hnormalized
  have hnext : publish network none definition created state = .plain (.ok { state with
      definitions := state.definitions ++ [definition]
      pendingSecretDeletes := sortedReferences left }) := by
    have hretired : left ++ retiredReferences none (some definition) = left := by
      simp [retiredReferences, without, definitionReferences]
    unfold publish
    rw [hn, hindex, hleft]
    simp only [hndef, hothers, hsame, hretired, cloneDefinition_of_headers hheaders, beq_self_eq_true,
      Option.isNone_none, ensure, bind, Except.bind, if_true]
    rfl
  refine ⟨_, hnext, ?_, rfl⟩
  have howned : ∀ r, r ∈ definitionReferences (state.definitions ++ [definition]) ↔
      r ∈ state.owned ∨ r ∈ created := fun r => by
    rw [definitionReferences_append, List.mem_append, hcreated]
  have hnew : ∀ r ∈ created, r ∉ state.owned := fun r hr => (h.pending r (hstaged r hr)).2
  exact {
    schema := h.schema
    room := by
      rw [List.length_append, List.length_singleton]
      exact hroom
    profileRoom := h.profileRoom
    pendingRoom := by
      have hsub : sortedReferences left ⊆ state.pendingSecretDeletes := fun r hr =>
        ((hiff r).mp (mem_sortedReferences.mp hr)).1
      exact Nat.le_trans (List.subperm_of_subset (nodup_sortedReferences left) hsub).length_le
        h.pendingRoom
    web := h.web
    presets := h.presets
    normalized := fun d hd => by
      rcases List.mem_append.mp hd with hd | hd
      · exact h.normalized d hd
      · rw [List.mem_singleton.mp hd]
        exact ⟨n, hn, hndef⟩
    ids := by
      rw [List.map_append, List.nodup_append]
      refine ⟨h.ids, List.nodup_singleton _, fun id hid id' hid' heq => ?_⟩
      obtain ⟨stored, hstored, rfl⟩ := List.mem_map.mp hid
      exact hfresh stored hstored (heq.trans (List.mem_singleton.mp hid'))
    references := by
      change (definitionReferences (state.definitions ++ [definition])).Nodup
      rw [definitionReferences_append, List.nodup_append]
      exact ⟨h.references, hreferences, fun r hr r' hr' heq =>
        hnew r' ((hcreated r').mp hr') (heq ▸ hr)⟩
    profiles := h.profiles
    pending := fun r hr => by
      obtain ⟨hpending, hnot⟩ := (hiff r).mp (mem_sortedReferences.mp hr)
      exact ⟨(h.pending r hpending).1, fun hmem =>
        ((howned r).mp hmem).elim (h.pending r hpending).2 hnot⟩
    pendingNodup := nodup_sortedReferences _ }

end RlcdDeck.StructuredProvider

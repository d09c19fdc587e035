import RlcdDeck.StructuredProvider.Equiv.State
import RlcdDeck.StructuredProvider.SecretTransaction

/-!
# What `CommitDefinition` stores

`CommitDefinition` of a new definition, with one binding for each header, while no access to the
file or the vault fails (`Healthy`).  Each binding stages a reference and writes it into its header
(`Bound`); the definition that is then normalised is a fixed point of `normalizeConfig`, and its
copy is what is published.  The copy of a definition without headers is another one: its slice of
headers is nil, and the checks of `Publish` and of the store compare it with one that is not.
-/

namespace RlcdDeck.StructuredProvider

open Effects (Program)
open Json (Bytes bytes)
open ConfigModel (Network)
open SecretStore (Reference validReference maximumSecretBytes)

/-! ### Accesses that do not fail -/

/-- A reference that nothing has used. -/
structure Unused (w : World) (reference : Reference) : Prop where
  valid : validReference reference = true
  drawn : reference ∉ w.drawn
  vault : w.vault reference = none
  owned : reference ∉ w.file.document.owned
  pending : reference ∉ w.file.document.pendingSecretDeletes

/-- An access that does not fail; a reference that is generated is unused. -/
def Healthy (network : Network) (w : World) : (call : Call) → call.Res → World → Prop
  | .context, r, w' => r = none ∧ w' = w
  | .update mutate, r, w' => r = (updateWithCommit network w.file mutate .committed).1 ∧
      w' = { w with file := (updateWithCommit network w.file mutate .committed).2 }
  | .state, r, w' => r = w.file.document ∧ w' = w
  | .configuration, r, w' => r = .ok w.file.document.configuration ∧ w' = w
  | .newReference, r, w' => ∃ reference, r = some reference ∧ Unused w reference ∧
      w' = { w with drawn := reference :: w.drawn }
  | .create reference, r, w' =>
      r = .ok () ∧ w.vault reference = none ∧ w' = w.put reference .placeholder
  | .write reference value, r, w' =>
      r = .ok () ∧ w.vault reference ≠ none ∧ w' = w.put reference (.secret value)
  | .delete reference, r, w' => r = .ok () ∧ w' = w.remove reference
  | .list, r, w' => (∃ references, r = .ok references ∧
      ∀ reference, reference ∈ references ↔ w.vault reference ≠ none) ∧ w' = w

/-- There are `n` references that nothing has used. -/
def Free (w : World) (n : ℕ) : Prop :=
  ∃ fresh : List Reference, fresh.Nodup ∧ n ≤ fresh.length ∧ ∀ reference ∈ fresh, Unused w reference

theorem Free.exists_unused {w : World} {n : ℕ} (h : Free w (n + 1)) :
    ∃ reference, Unused w reference := by
  obtain ⟨fresh, -, hlength, hunused⟩ := h
  cases fresh with
  | nil => simp at hlength
  | cons reference fresh => exact ⟨reference, hunused reference List.mem_cons_self⟩

/-! ### `PutNew` -/

/-- The world after a secret was put under a new reference, which was staged. -/
structure Put (w : World) (reference : Reference) (w' : World) : Prop where
  document : w'.file.document = { w.file.document with
    pendingSecretDeletes := sortedReferences (reference :: w.file.document.pendingSecretDeletes) }
  drawn : w'.drawn = reference :: w.drawn
  vault : ∀ other, other ≠ reference → w'.vault other = w.vault other

theorem Put.free {w w' : World} {reference : Reference} {n : ℕ} (h : Put w reference w')
    (hfree : Free w (n + 1)) : Free w' n := by
  obtain ⟨fresh, hnodup, hlength, hunused⟩ := hfree
  refine ⟨fresh.erase reference, hnodup.erase reference, ?_, fun other hother => ?_⟩
  · have herase := List.length_erase_le (a := reference) (l := fresh)
    have hlow := List.le_length_erase (a := reference) (l := fresh)
    omega
  · have hmem : other ∈ fresh ∧ other ≠ reference := by
      rw [hnodup.mem_erase_iff] at hother
      exact ⟨hother.2, hother.1⟩
    have hother := hunused other hmem.1
    exact {
      valid := hother.valid
      drawn := by
        rw [h.drawn, List.mem_cons, not_or]
        exact ⟨hmem.2, hother.drawn⟩
      vault := by
        rw [h.vault other hmem.2]
        exact hother.vault
      owned := by
        rw [h.document]
        exact hother.owned
      pending := by
        rw [h.document, mem_sortedReferences, List.mem_cons, not_or]
        exact ⟨hmem.2, hother.pending⟩ }

theorem updateWithCommit_ok (network : Network) (file : File) (mutate : State → Mutation)
    {next : State} (hmutate : mutate file.document.clone = .plain (.ok next))
    (hvalid : Valid network next) :
    updateWithCommit network file mutate .committed = (⟨true, none, []⟩, ⟨next, []⟩) := by
  unfold updateWithCommit
  rw [hmutate]
  simp [Mutation.plain, validateState_iff.mpr hvalid]

theorem stage_total {network : Network} {w : World} {reference : Reference} (staging : Staging)
    (hvalid : Valid network w.file.document)
    (hheaders : ∀ stored ∈ w.file.document.definitions, stored.headers ≠ [])
    (hroom : w.file.document.pendingSecretDeletes.length < maximumPendingCleanup)
    (hreference : validReference reference = true) (howned : reference ∉ w.file.document.owned) :
    (stage staging reference).total (Healthy network) (fun r w' =>
      r = ({ staging with staged := staging.staged ++ [reference] }, none) ∧
        w' = { w with file := ⟨{ w.file.document with
          pendingSecretDeletes :=
            sortedReferences (reference :: w.file.document.pendingSecretDeletes) }, []⟩ }) w := by
  have hupdate := updateWithCommit_ok network w.file
    (stageCleanup [reference])
    (by rw [clone_of_valid hvalid hheaders]; exact stageCleanup_singleton hreference howned)
    (hvalid.stage hreference howned hroom)
  refine Program.total_perform ⟨_, _, rfl, rfl⟩ ?_
  rintro r w' ⟨rfl, rfl⟩
  rw [hupdate]
  exact Program.total_pure ⟨rfl, rfl⟩

theorem putNew_total {network : Network} {w : World} {value : Bytes} (staging : Staging)
    (hempty : value ≠ []) (hlength : value.length ≤ maximumSecretBytes)
    (hvalid : Valid network w.file.document)
    (hheaders : ∀ stored ∈ w.file.document.definitions, stored.headers ≠ [])
    (hroom : w.file.document.pendingSecretDeletes.length < maximumPendingCleanup)
    (hunused : ∃ reference, Unused w reference) :
    (putNew value stage staging).total (Healthy network) (fun r w' => ∃ reference,
      Unused w reference ∧ Put w reference w' ∧
        r = (.ok reference, { staging with staged := staging.staged ++ [reference] })) w := by
  unfold putNew
  rw [if_neg (by simp [hempty, hlength])]
  refine Program.total_perform ⟨_, _, rfl, rfl⟩ ?_
  rintro r w' ⟨rfl, rfl⟩
  unfold SecretStore.maximumCreateAttempts putAttempts
  refine Program.total_perform ?_ ?_
  · obtain ⟨reference, hreference⟩ := hunused
    exact ⟨_, _, reference, rfl, hreference, rfl⟩
  rintro r w₁ ⟨reference, rfl, hreference, rfl⟩
  refine Program.total_perform ⟨_, _, rfl, hreference.vault, rfl⟩ ?_
  rintro r w₂ ⟨rfl, -, rfl⟩
  refine Program.total_bind (Program.total_mono (stage_total staging hvalid hheaders hroom
    hreference.valid hreference.owned) ?_)
  rintro r w₃ ⟨rfl, rfl⟩
  refine Program.total_perform ⟨_, _, rfl, ?_, rfl⟩ ?_
  · simp [World.put]
  rintro r w₄ ⟨rfl, -, rfl⟩
  refine Program.total_pure ⟨reference, hreference, ⟨rfl, rfl, fun other hother => ?_⟩, rfl⟩
  simp [World.put, hother]

/-! ### The loop over the bindings -/

theorem bindHeader_withReferences (definition : Definition) (references : ℕ → Reference) (i : ℕ)
    (reference : Reference) :
    bindHeader (withReferences definition references) i reference =
      withReferences definition (Function.update references i reference) := by
  have hheaders : ∀ headers : List Header,
      (headers.mapIdx fun j header => { header with secretReference := references j }).modify i
        (fun header => { header with secretReference := reference }) =
      headers.mapIdx fun j header =>
        { header with secretReference := Function.update references i reference j } := by
    intro headers
    apply List.ext_getElem
    · simp
    · intro j hj hj'
      rw [List.getElem_modify, List.getElem_mapIdx, List.getElem_mapIdx]
      by_cases hij : i = j
      · subst hij
        simp
      · rw [if_neg hij, Function.update_of_ne (Ne.symm hij)]
  unfold bindHeader withReferences
  cases definition.request.headers with
  | none => rfl
  | some headers => simp [hheaders]

/-- The loop over the bindings, in a world whose document is `start` but for the journal. -/
structure Bound (network : Network) (start : State) (definition : Definition) (binding : Binding)
    (references : ℕ → Reference) (w : World) : Prop where
  candidate : binding.candidate = withReferences definition references
  staged : binding.staged = binding.created
  nodup : binding.created.Nodup
  mem : ∀ reference, reference ∈ binding.created ↔
    ∃ i < definition.headers.length, (i : ℤ) ∈ binding.seen ∧ references i = reference
  injective : ∀ i < definition.headers.length, (i : ℤ) ∈ binding.seen →
    ∀ j < definition.headers.length, (j : ℤ) ∈ binding.seen → references i = references j → i = j
  unset : ∀ i : ℕ, (i : ℤ) ∉ binding.seen → references i = []
  document : { w.file.document with pendingSecretDeletes := start.pendingSecretDeletes } = start
  valid : Valid network w.file.document
  pending : ∀ reference ∈ binding.created, reference ∈ w.file.document.pendingSecretDeletes

/-- A binding that the loop takes. -/
structure Fits (definition : Definition) (binding : SecretBinding) : Prop where
  index : ∃ i < definition.headers.length, binding.headerIndex = (i : ℤ)
  value : binding.value ≠ []
  length : binding.value.length ≤ maximumSecretBytes

namespace Bound

variable {network : Network} {start : State} {definition : Definition} {binding : Binding}
  {references : ℕ → Reference} {w : World}

theorem definitions (h : Bound network start definition binding references w) :
    w.file.document.definitions = start.definitions := by
  rw [← h.document]

theorem validBinding (h : Bound network start definition binding references w)
    {secret : SecretBinding} (hfits : Fits definition secret)
    (hseen : secret.headerIndex ∉ binding.seen) : validBinding binding secret = true := by
  obtain ⟨i, hi, hindex⟩ := hfits.index
  have hunset : references i = [] := h.unset i (by rw [← hindex]; exact hseen)
  have hvalue := hfits.value
  rw [hindex] at hseen
  simp [StructuredProvider.validBinding, h.candidate, hindex, hi, hseen, hvalue, hunset]

/-- One binding more. -/
theorem next (h : Bound network start definition binding references w) {i : ℕ}
    (hi : i < definition.headers.length) (hseen : (i : ℤ) ∉ binding.seen) {reference : Reference}
    (hunused : Unused w reference) {w' : World} (hput : Put w reference w')
    (hvalid : Valid network w'.file.document) :
    Bound network start definition {
      candidate := bindHeader binding.candidate i reference
      seen := (i : ℤ) :: binding.seen
      created := binding.created ++ [reference]
      staged := binding.staged ++ [reference] } (Function.update references i reference) w' := by
  have hnew : reference ∉ binding.created := fun hmem => hunused.pending (h.pending _ hmem)
  have hother : ∀ j : ℕ, (j : ℤ) ∈ binding.seen →
      Function.update references i reference j = references j := fun j hj => by
    rw [Function.update_of_ne]
    rintro rfl
    exact hseen hj
  have hdiffers : ∀ j : ℕ, (j : ℤ) ∈ binding.seen → j < definition.headers.length →
      references j ≠ reference := fun j hj hlt heq =>
    hnew ((h.mem reference).mpr ⟨j, hlt, hj, heq⟩)
  exact {
    candidate := by
      rw [h.candidate]
      exact bindHeader_withReferences definition references i reference
    staged := by rw [h.staged]
    nodup := by
      rw [List.nodup_append]
      exact ⟨h.nodup, List.nodup_singleton _, fun r hr r' hr' heq =>
        hnew (List.mem_singleton.mp hr' ▸ heq ▸ hr)⟩
    mem := fun r => by
      rw [List.mem_append, List.mem_singleton, h.mem]
      constructor
      · rintro (⟨j, hj, hjseen, hjr⟩ | rfl)
        · exact ⟨j, hj, List.mem_cons_of_mem _ hjseen, (hother j hjseen).trans hjr⟩
        · exact ⟨i, hi, List.mem_cons_self, Function.update_self ..⟩
      · rintro ⟨j, hj, hjseen, hjr⟩
        rcases List.mem_cons.mp hjseen with heq | hjseen
        · obtain rfl : j = i := Int.ofNat.inj heq
          exact Or.inr (hjr.symm.trans (Function.update_self ..))
        · exact Or.inl ⟨j, hj, hjseen, (hother j hjseen).symm.trans hjr⟩
    injective := fun j hj hjseen k hk hkseen heq => by
      rcases List.mem_cons.mp hjseen with hji | hjold
      · obtain rfl : j = i := Int.ofNat.inj hji
        rcases List.mem_cons.mp hkseen with hki | hkold
        · exact (Int.ofNat.inj hki).symm
        · rw [Function.update_self, hother k hkold] at heq
          exact absurd heq.symm (hdiffers k hkold hk)
      · rcases List.mem_cons.mp hkseen with hki | hkold
        · obtain rfl : k = i := Int.ofNat.inj hki
          rw [Function.update_self, hother j hjold] at heq
          exact absurd heq (hdiffers j hjold hj)
        · rw [hother j hjold, hother k hkold] at heq
          exact h.injective j hj hjold k hk hkold heq
    unset := fun j hj => by
      rw [List.mem_cons, not_or] at hj
      rw [Function.update_of_ne fun heq => hj.1 (congrArg Int.ofNat heq)]
      exact h.unset j hj.2
    document := by
      rw [hput.document]
      exact h.document
    valid := hvalid
    pending := fun r hr => by
      rw [hput.document, mem_sortedReferences, List.mem_cons]
      rcases List.mem_append.mp hr with hr | hr
      · exact Or.inr (h.pending r hr)
      · exact Or.inl (List.mem_singleton.mp hr) }

end Bound

/-- **The loop over the bindings** writes a reference into each of their headers. -/
theorem bindSecrets_total {network : Network} {start : State} {definition : Definition}
    (hheaders : ∀ stored ∈ start.definitions, stored.headers ≠ []) :
    ∀ {bindings : List SecretBinding} {binding : Binding} {references : ℕ → Reference} {w : World},
      Bound network start definition binding references w → Free w bindings.length →
      w.file.document.pendingSecretDeletes.length + bindings.length ≤ maximumPendingCleanup →
      (∀ secret ∈ bindings, Fits definition secret) →
      (bindings.map SecretBinding.headerIndex).Nodup →
      (∀ secret ∈ bindings, secret.headerIndex ∉ binding.seen) →
      (bindSecrets binding bindings).total (Healthy network) (fun r w' =>
        ∃ bound references', r = .ok bound ∧
          Bound network start definition bound references' w' ∧
          ∀ index, index ∈ bound.seen ↔
            index ∈ binding.seen ∨ index ∈ bindings.map SecretBinding.headerIndex) w := by
  intro bindings
  induction bindings with
  | nil =>
    intro binding references w hbound _ _ _ _ _
    exact Program.total_pure ⟨binding, references, rfl, hbound, by simp⟩
  | cons secret bindings ih =>
    intro binding references w hbound hfree hroom hfits hnodup hseen
    rw [List.length_cons] at hfree hroom
    rw [List.map_cons, List.nodup_cons] at hnodup
    rw [List.forall_mem_cons] at hfits hseen
    unfold bindSecrets
    rw [if_neg (by rw [hbound.validBinding hfits.1 hseen.1]; exact Bool.false_ne_true)]
    have hput := putNew_total ⟨binding.staged, false⟩ hfits.1.value hfits.1.length hbound.valid
      (by rw [hbound.definitions]; exact hheaders) (by omega) hfree.exists_unused
    refine Program.total_bind (Program.total_mono hput ?_)
    rintro r w' ⟨reference, hunused, hput, rfl⟩
    obtain ⟨i, hi, hindex⟩ := hfits.1.index
    have hvalid : Valid network w'.file.document := by
      rw [hput.document]
      exact hbound.valid.stage hunused.valid hunused.owned (by omega)
    have hnext := hbound.next hi (by rw [← hindex]; exact hseen.1) hunused hput hvalid
    have hlength : w'.file.document.pendingSecretDeletes.length ≤
        w.file.document.pendingSecretDeletes.length + 1 := by
      rw [hput.document]
      exact length_sortedReferences_le _
    have htoNat : secret.headerIndex.toNat = i := by
      rw [hindex]
      rfl
    rw [← hindex, ← htoNat] at hnext
    refine Program.total_mono (ih hnext (hput.free hfree) (by omega) hfits.2 hnodup.2 ?_) ?_
    · intro other hother hmem
      rcases List.mem_cons.mp hmem with heq | hmem
      · exact hnodup.1 (List.mem_map.mpr ⟨other, hother, heq⟩)
      · exact hseen.2 other hother hmem
    · rintro r' w'' ⟨bound, references', rfl, hbound', hall⟩
      refine ⟨bound, references', rfl, hbound', fun index => ?_⟩
      rw [hall, List.mem_cons, List.map_cons, List.mem_cons]
      tauto

/-! ### The publication -/

theorem rollback_nil : rollback [] = pure [] := rfl

theorem map_secretReference (headers : List Header) (references : ℕ → Reference) :
    (headers.mapIdx fun i header => { header with secretReference := references i }).map
      (fun header => header.secretReference) = (List.range headers.length).map references := by
  apply List.ext_getElem
  · simp
  · intro i hi hi'
    simp

/-- The definition with the references of the loop is accepted, and what becomes of it. -/
theorem Bound.normalized {network : Network} {start : State} {definition : Definition}
    {binding : Binding} {references : ℕ → Reference} {w : World}
    (h : Bound network start definition binding references w)
    (hall : ∀ i < definition.headers.length, (i : ℤ) ∈ binding.seen)
    {draft : ℕ → Reference} (hdraft : ∀ i, validReference (draft i) = true) {n : NormalizedConfig}
    (haccepted : normalizeConfig network (withReferences definition draft) = .ok n) :
    ∃ bound, normalizeConfig network (withReferences definition references) = .ok bound ∧
      bound.definition.id = definition.id ∧
      (bound.definition.headers = [] ↔ definition.headers = []) ∧
      (definitionReferences [bound.definition]).Nodup ∧
      ∀ reference, reference ∈ definitionReferences [bound.definition] ↔
        reference ∈ binding.created := by
  have hmem : ∀ i < definition.headers.length, references i ∈ binding.created := fun i hi =>
    (h.mem _).mpr ⟨i, hi, hall i hi, rfl⟩
  have hvalid : ∀ i < definition.headers.length, validReference (references i) = true :=
    fun i hi => (h.valid.pending _ (h.pending _ (hmem i hi))).1
  obtain ⟨headers, target, mapping, hchecks, -⟩ := normalizeConfig_eq_ok.mp haccepted
  have hlength : headers.length = definition.headers.length := by
    rw [hchecks.length_headers, headers_withReferences, List.length_mapIdx]
  have hbound := accepted_withReferences (fun i _ => hdraft i) hvalid hchecks
  have hreferences : ∀ n : NormalizedConfig, n.definition =
      withDefaults (withReferences definition references) (headers.mapIdx fun i header =>
        { header with secretReference := references i }) →
      definitionReferences [n.definition] =
        (List.range definition.headers.length).map references := by
    intro n hn
    have hkeep : ∀ reference ∈ (List.range definition.headers.length).map references,
        (!reference.isEmpty) = true := by
      intro reference hreference
      obtain ⟨i, hi, rfl⟩ := List.mem_map.mp hreference
      have hlen := validReference_length (hvalid i (List.mem_range.mp hi))
      cases hr : references i with
      | nil =>
        rw [hr] at hlen
        cases hlen
      | cons c tail => rfl
    unfold definitionReferences
    rw [List.flatMap_singleton, hn]
    change ((headers.mapIdx fun i header => { header with secretReference := references i }).map
      fun header => header.secretReference).filter _ = _
    rw [map_secretReference, hlength]
    exact List.filter_eq_self.mpr hkeep
  refine ⟨_, normalizeConfig_eq_ok.mpr ⟨_, target, mapping, hbound, rfl⟩, rfl, ?_, ?_, ?_⟩
  · change (headers.mapIdx fun i header => { header with secretReference := references i }) = [] ↔ _
    rw [← List.length_eq_zero_iff, List.length_mapIdx, hlength, List.length_eq_zero_iff]
  · rw [hreferences _ rfl]
    refine List.Nodup.map_on (fun i hi j hj heq => ?_) List.nodup_range
    exact h.injective i (List.mem_range.mp hi) (hall i (List.mem_range.mp hi)) j
      (List.mem_range.mp hj) (hall j (List.mem_range.mp hj)) heq
  · intro reference
    rw [hreferences _ rfl, List.mem_map, h.mem]
    constructor
    · rintro ⟨i, hi, heq⟩
      exact ⟨i, List.mem_range.mp hi, hall i (List.mem_range.mp hi), heq⟩
    · rintro ⟨i, hi, -, heq⟩
      exact ⟨i, List.mem_range.mpr hi, heq⟩

/-- The definition is stored, with some reference at each header and normalised. -/
def Stored (network : Network) (definition : Definition) (w : World) (result : CommitResult)
    (w' : World) : Prop :=
  ∃ (references : ℕ → Reference) (n : NormalizedConfig),
    normalizeConfig network (withReferences definition references) = .ok n ∧
      result = ⟨some n.definition, none⟩ ∧
      w'.file.document.definitions = w.file.document.definitions ++ [n.definition]

theorem publishBound_total {network : Network} {w₀ : World} {definition : Definition}
    {binding : Binding} {references : ℕ → Reference} {w : World}
    (h : Bound network w₀.file.document definition binding references w)
    (hheaders : ∀ stored ∈ w₀.file.document.definitions, stored.headers ≠ [])
    (hall : ∀ i < definition.headers.length, (i : ℤ) ∈ binding.seen)
    {draft : ℕ → Reference} (hdraft : ∀ i, validReference (draft i) = true) {n : NormalizedConfig}
    (haccepted : normalizeConfig network (withReferences definition draft) = .ok n)
    (hslots : definition.headers ≠ [])
    (hfresh : ∀ stored ∈ w₀.file.document.definitions, stored.id ≠ definition.id)
    (hroom : w₀.file.document.definitions.length < maximumStoredDefinitions) :
    (publishBound network none binding).total (Healthy network)
      (Stored network definition w₀) w := by
  obtain ⟨bound, hbound, hid, hempty, hnodup, hcreated⟩ := h.normalized hall hdraft haccepted
  have hsome : bound.definition.headers ≠ [] := fun hnil => hslots (hempty.mp hnil)
  have hclone : cloneDefinition bound.definition = bound.definition :=
    cloneDefinition_of_headers hsome
  have hdocument : w.file.document.clone = w.file.document :=
    clone_of_valid h.valid (by rw [h.definitions]; exact hheaders)
  obtain ⟨next, hnext, hvalid, hdefinitions⟩ := publish_new h.valid (normalizeConfig_normalized hbound)
    hsome (by rw [h.definitions, hid]; exact hfresh) (by rw [h.definitions]; exact hroom) h.nodup
    hcreated hnodup h.pending
  have hupdate := updateWithCommit_ok network w.file
    (publish network none bound.definition binding.created)
    (by rw [hdocument]; exact hnext) hvalid
  have hrollback : retiredReferences none (some bound.definition) ++
      unactivatedReferences binding.staged binding.created = [] := by
    rw [h.staged]
    simp [retiredReferences, unactivatedReferences, without, definitionReferences]
  unfold publishBound
  rw [h.candidate, hbound]
  dsimp only
  rw [hclone, hclone, hrollback, rollback_nil]
  refine Program.total_perform ⟨_, _, rfl, rfl⟩ ?_
  rintro r w' ⟨rfl, rfl⟩
  rw [hupdate]
  refine Program.total_pure ⟨references, bound, hbound, rfl, ?_⟩
  rw [hdefinitions, h.definitions]

/-! ### Where nothing is stored -/

theorem updateWithCommit_refused (network : Network) (file : File) (mutate : State → Mutation)
    (h : ∀ next, (mutate file.document.clone).next = .ok next → ¬ Valid network next) :
    (updateWithCommit network file mutate .committed).1.committed = false ∧
      ((updateWithCommit network file mutate .committed).1.error = some .invalidConfig ∨
        ∃ failure, (mutate file.document.clone).next = .error failure) := by
  unfold updateWithCommit
  cases hnext : (mutate file.document.clone).next with
  | error failure => simp [hnext]
  | ok next =>
    have hinvalid : validateState network next = false := by
      by_contra hvalid
      exact h next hnext (validateState_iff.mp (Bool.not_eq_false _ |>.mp hvalid))
    simp [hnext, hinvalid]

theorem not_valid_of_clone {network : Network} {state : State} (stored : Definition)
    (hstored : cloneDefinition stored ∈ state.definitions) (hheaders : stored.headers = []) :
    ¬ Valid network state := fun h =>
  not_normalized_cloneDefinition hheaders (h.normalized _ hstored)

theorem publish_ok {network : Network} {definition : Definition} {created : List Reference}
    {state next : State} (h : (publish network none definition created state).next = .ok next) :
    Normalized network definition ∧
      next.definitions = state.definitions ++ [cloneDefinition definition] := by
  unfold publish Mutation.plain at h
  cases hn : normalizeConfig network definition with
  | error failure => simp [hn, bind, Except.bind] at h
  | ok n =>
    rw [hn] at h
    simp only [bind_eq_ok, ensure_eq_ok] at h
    obtain ⟨_, hsame, index, -, _, -, _, -, h⟩ := h
    refine ⟨⟨n, hn, eq_of_beq hsame⟩, ?_⟩
    split at h
    · cases h
    · obtain rfl := Except.ok.inj h
      rfl

/-! ### What is refused -/

/-- Nothing is stored of a definition without headers, or beside one that is stored. -/
def Bare (candidate : Definition) (w : World) : Prop :=
  candidate.headers = [] ∨ ∃ stored ∈ w.file.document.definitions, stored.headers = []

theorem publishBound_refused {network : Network} {w : World} {binding : Binding}
    (hstaged : binding.staged = []) (h : Bare binding.candidate w) :
    (publishBound network none binding).total (Healthy network)
      (fun result _ => result.definition = none) w := by
  unfold publishBound
  rw [hstaged]
  cases hn : normalizeConfig network binding.candidate with
  | error failure => exact Program.total_pure rfl
  | ok n =>
    dsimp only
    refine Program.total_perform ⟨_, _, rfl, rfl⟩ ?_
    rintro r w' ⟨rfl, rfl⟩
    have hrefused := updateWithCommit_refused network w.file
      (publish network none (cloneDefinition (cloneDefinition n.definition))
        binding.created) (fun next hnext hvalid => by
        obtain ⟨hnormalized, hdefinitions⟩ := publish_ok hnext
        rcases h with hempty | ⟨stored, hstored, hempty⟩
        · obtain ⟨headers, target, mapping, hchecks, rfl⟩ := normalizeConfig_eq_ok.mp hn
          have hnil : headers = [] := by
            rw [← List.length_eq_zero_iff, hchecks.length_headers, hempty]
            rfl
          refine not_normalized_cloneDefinition ?_ hnormalized
          rw [headers_cloneDefinition]
          exact hnil
        · refine not_valid_of_clone stored ?_ hempty hvalid
          rw [hdefinitions]
          exact List.mem_append_left _ (List.mem_map.mpr ⟨stored, hstored, rfl⟩))
    rw [hrefused.1]
    exact Program.total_pure rfl

/-- In a store with a definition without headers no reference is staged. -/
theorem putNew_refused {network : Network} {w : World} {value : Bytes} (staging : Staging)
    (hheaders : ∃ stored ∈ w.file.document.definitions, stored.headers = [])
    (hunused : ∃ reference, Unused w reference) :
    (putNew value stage staging).total (Healthy network) (fun r _ =>
      (∃ failure, r.1 = .error failure) ∧ r.2.staged = staging.staged) w := by
  obtain ⟨stored, hstored, hempty⟩ := hheaders
  unfold putNew
  split_ifs with hvalue
  · exact Program.total_pure ⟨⟨_, rfl⟩, rfl⟩
  refine Program.total_perform ⟨_, _, rfl, rfl⟩ ?_
  rintro r w' ⟨rfl, hw⟩
  obtain rfl : w = w' := hw.symm
  unfold SecretStore.maximumCreateAttempts putAttempts
  refine Program.total_perform ?_ ?_
  · obtain ⟨reference, hreference⟩ := hunused
    exact ⟨_, _, reference, rfl, hreference, rfl⟩
  rintro r w₁ ⟨reference, rfl, hreference, rfl⟩
  refine Program.total_perform ⟨_, _, rfl, hreference.vault, rfl⟩ ?_
  rintro r w₂ ⟨rfl, -, rfl⟩
  refine Program.total_bind (Program.total_perform ⟨_, _, rfl, rfl⟩ ?_)
  rintro r w₃ ⟨rfl, rfl⟩
  have hstage : stageCleanup [reference] w.file.document.clone = .plain (.ok _) :=
    stageCleanup_singleton hreference.valid (by rw [owned_clone]; exact hreference.owned)
  have hrefused := updateWithCommit_refused network w.file
    (stageCleanup [reference]) (fun next hnext hvalid => by
      rw [hstage] at hnext
      obtain rfl := Except.ok.inj hnext
      exact not_valid_of_clone stored (List.mem_map.mpr ⟨stored, hstored, rfl⟩) hempty
        hvalid)
  have herror : (updateWithCommit network w.file (stageCleanup [reference]) .committed).1.error =
      some .invalidConfig := by
    rcases hrefused.2 with herror | ⟨failure, hfailure⟩
    · exact herror
    · rw [hstage] at hfailure
      cases hfailure
  dsimp only [World.put]
  rw [herror]
  refine Program.total_perform ⟨_, _, rfl, rfl⟩ ?_
  rintro r w₄ ⟨rfl, rfl⟩
  exact Program.total_pure ⟨⟨_, rfl⟩, rfl⟩

theorem commitDefinition_refused (network : Network) {w : World} (definition : Definition)
    (bindings : List SecretBinding) (hfree : Free w bindings.length)
    (h : definition.headers = [] ∧ bindings = [] ∨
      ∃ stored ∈ w.file.document.definitions, stored.headers = []) :
    (commitDefinition network none definition bindings).total (Healthy network)
      (fun result _ => result.definition = none) w := by
  have hbare : Bare (cloneDefinition definition) w :=
    h.imp_left fun hempty => by rw [headers_cloneDefinition, hempty.1]
  unfold commitDefinition
  cases bindings with
  | nil =>
    refine Program.total_bind (Program.total_pure ?_)
    exact publishBound_refused rfl hbare
  | cons secret bindings =>
    have hstored : ∃ stored ∈ w.file.document.definitions, stored.headers = [] :=
      h.resolve_left (by simp)
    unfold bindSecrets
    by_cases hvalid : validBinding ⟨cloneDefinition definition, [], [], []⟩ secret = true
    · rw [if_neg (by rw [hvalid]; exact Bool.false_ne_true)]
      refine Program.total_bind (Program.total_bind (Program.total_mono
        (putNew_refused ⟨[], false⟩ hstored hfree.exists_unused) ?_))
      rintro ⟨put, ⟨staged, stageFailed⟩⟩ w' ⟨⟨failure, hput⟩, hstaged⟩
      dsimp only at hput hstaged
      subst hput hstaged
      exact Program.total_pure rfl
    · rw [if_pos (by simpa using hvalid)]
      exact Program.total_bind (Program.total_pure rfl)

theorem not_stored (network : Network) {w : World} {definition : Definition}
    {bindings : List SecretBinding} (hfree : Free w bindings.length)
    (h : definition.headers = [] ∧ bindings = [] ∨
      ∃ stored ∈ w.file.document.definitions, stored.headers = []) :
    ¬ (commitDefinition network none definition bindings).total (Healthy network)
      (Stored network definition w) w := by
  intro hstored
  obtain ⟨result, w', ⟨references, normalized, -, hresult, -⟩, hnone⟩ :=
    Program.total_and hstored (commitDefinition_refused network definition bindings hfree h)
  rw [hresult] at hnone
  cases hnone

theorem withReferences_slots {definition : Definition}
    (h : ∀ header ∈ definition.headers, header.secretReference = []) :
    withReferences definition (fun _ => []) = definition := by
  obtain ⟨id, displayName, experimental, ⟨method, url, headers, body⟩, mapping, refresh, timeout,
    response⟩ := definition
  cases headers with
  | none => rfl
  | some headers =>
    have hblank : ∀ header : Header, header.secretReference = [] →
        { header with secretReference := [] } = header := by
      rintro ⟨name, reference, prefixText⟩ rfl
      rfl
    have hsame : (headers.mapIdx fun _ header => { header with secretReference := [] }) =
        headers := by
      apply List.ext_getElem
      · simp
      · intro i hi hi'
        have hslot : headers[i].secretReference = [] := h _ (List.getElem_mem hi')
        rw [List.getElem_mapIdx]
        exact hblank _ hslot
    simp [withReferences, hsame]

/-- **What is stored.**  A definition with a new identifier, empty header slots and one binding for
each header, which `normalizeConfig` accepts once its slots are bound: while there is room and no
access fails, `CommitDefinition` stores it as it was normalised exactly if it has a header, and so
has every definition that is stored. -/
theorem commitDefinition_stores (network : Network) (w : World) (definition : Definition)
    (bindings : List SecretBinding) (draft : ℕ → Reference)
    (hvalid : validateState network w.file.document = true)
    (hroom : w.file.document.definitions.length < maximumStoredDefinitions)
    (hpending : w.file.document.pendingSecretDeletes.length + bindings.length ≤
      maximumPendingCleanup)
    (hfree : Free w bindings.length)
    (hfresh : ∀ stored ∈ w.file.document.definitions, stored.id ≠ definition.id)
    (hslots : ∀ header ∈ definition.headers, header.secretReference = [])
    (hdraft : ∀ i, validReference (draft i) = true)
    (haccepted : (normalizeConfig network (withReferences definition draft)).isOk = true)
    (hindexes : (bindings.map SecretBinding.headerIndex).Perm
      ((List.range definition.headers.length).map Int.ofNat))
    (hvalues : ∀ secret ∈ bindings,
      secret.value ≠ [] ∧ secret.value.length ≤ maximumSecretBytes) :
    (commitDefinition network none definition bindings).total (Healthy network)
        (Stored network definition w) w ↔
      definition.headers ≠ [] ∧
        ∀ stored ∈ w.file.document.definitions, stored.headers ≠ [] := by
  constructor
  · intro hstored
    by_contra hbare
    refine not_stored network hfree ?_ hstored
    by_cases hempty : definition.headers = []
    · rw [hempty] at hindexes
      exact Or.inl ⟨hempty, List.map_eq_nil_iff.mp hindexes.eq_nil⟩
    · have hnot : ¬ ∀ stored ∈ w.file.document.definitions, stored.headers ≠ [] :=
        fun hall => hbare ⟨hempty, hall⟩
      push Not at hnot
      exact Or.inr hnot
  · rintro ⟨hheaders, hall⟩
    obtain ⟨n, hn⟩ : ∃ n, normalizeConfig network (withReferences definition draft) = .ok n := by
      cases hresult : normalizeConfig network (withReferences definition draft) with
      | error failure =>
        rw [hresult] at haccepted
        cases haccepted
      | ok n => exact ⟨n, rfl⟩
    have hmem : ∀ index, index ∈ bindings.map SecretBinding.headerIndex ↔
        ∃ i < definition.headers.length, Int.ofNat i = index := fun index => by
      rw [hindexes.mem_iff, List.mem_map]
      simp only [List.mem_range]
    have hnodup : (bindings.map SecretBinding.headerIndex).Nodup :=
      hindexes.nodup_iff.mpr (List.nodup_range.map fun _ _ heq => Int.ofNat.inj heq)
    have hstart : Bound network w.file.document definition ⟨cloneDefinition definition, [], [], []⟩
        (fun _ => []) w := {
      candidate := by
        rw [cloneDefinition_of_headers hheaders, withReferences_slots hslots]
      staged := rfl
      nodup := List.nodup_nil
      mem := by simp
      injective := by simp
      unset := fun _ _ => rfl
      document := rfl
      valid := validateState_iff.mp hvalid
      pending := by simp }
    unfold commitDefinition
    refine Program.total_bind (Program.total_mono
      (bindSecrets_total hall hstart hfree hpending (fun secret hsecret => ?_) hnodup
        (fun _ _ => List.not_mem_nil)) ?_)
    · obtain ⟨i, hi, hindex⟩ := (hmem _).mp (List.mem_map.mpr ⟨secret, hsecret, rfl⟩)
      exact ⟨⟨i, hi, hindex.symm⟩, (hvalues secret hsecret).1, (hvalues secret hsecret).2⟩
    · rintro r w' ⟨bound, references, rfl, hbound, hseen⟩
      refine publishBound_total hbound hall (fun i hi => ?_) hdraft hn hheaders hfresh hroom
      exact (hseen _).mpr (Or.inr ((hmem _).mpr ⟨i, hi, rfl⟩))

/-- A network on which the management address and the target `https://h` are what they say. -/
def sampleNetwork : Network where
  splitHostPort _ := some (bytes "127.0.0.1", bytes "7777")
  parseIp host :=
    if host = bytes "127.0.0.1" then some (List.replicate 10 0 ++ [0xff, 0xff, 127, 0, 0, 1])
    else none
  parseUrl _ := some ⟨bytes "https", bytes "h", bytes "h", false, [], [], []⟩

def sampleDefinition (headers : List Header) : Definition where
  id := bytes "p"
  displayName := bytes "P"
  experimental := false
  request := ⟨[], bytes "https://h", some headers, []⟩
  mapping := ⟨bytes "$.b", [], [], [], [], bytes "USD", 0, [], []⟩
  refreshMinutes := 5
  requestTimeoutSeconds := 0
  maximumResponseBytes := 0

def sampleReference : Reference := bytes "secret-00000000000000000000000000000000"

/-- An empty store and an empty vault. -/
def sampleWorld : World := ⟨⟨emptyState, []⟩, fun _ => none, [], []⟩

theorem sampleWorld_free : Free sampleWorld 1 :=
  ⟨[sampleReference], List.nodup_singleton _, Nat.le_refl _, fun reference hreference => by
    rw [List.mem_singleton.mp hreference]
    exact ⟨by decide +kernel, List.not_mem_nil, rfl, List.not_mem_nil, List.not_mem_nil⟩⟩

theorem sampleWorld_none : Free sampleWorld ([] : List SecretBinding).length :=
  ⟨[], List.nodup_nil, Nat.le_refl _, fun _ h => (List.not_mem_nil h).elim⟩

theorem commitDefinition_stores_one :
    (commitDefinition sampleNetwork none (sampleDefinition [⟨bytes "x-key", [], []⟩])
      [⟨0, bytes "s"⟩]).total (Healthy sampleNetwork)
      (Stored sampleNetwork (sampleDefinition [⟨bytes "x-key", [], []⟩]) sampleWorld) sampleWorld :=
  (commitDefinition_stores sampleNetwork sampleWorld (sampleDefinition [⟨bytes "x-key", [], []⟩])
    [⟨0, bytes "s"⟩] (fun _ => sampleReference) (by decide +kernel) (by decide) (by decide)
    sampleWorld_free (by simp [sampleWorld, emptyState]) (by decide) (fun _ => by decide +kernel)
    (by decide +kernel) (by decide) (by decide)).mpr
    ⟨by decide, by simp [sampleWorld, emptyState]⟩

/-- A definition without headers is accepted and not stored. -/
theorem commitDefinition_stores_fails :
    validateState sampleNetwork sampleWorld.file.document = true ∧
      (normalizeConfig sampleNetwork
        (withReferences (sampleDefinition []) fun _ => sampleReference)).isOk = true ∧
      ¬ (commitDefinition sampleNetwork none (sampleDefinition []) []).total (Healthy sampleNetwork)
        (Stored sampleNetwork (sampleDefinition []) sampleWorld) sampleWorld :=
  ⟨by decide +kernel, by decide +kernel,
    not_stored sampleNetwork sampleWorld_none (Or.inl ⟨rfl, rfl⟩)⟩

end RlcdDeck.StructuredProvider

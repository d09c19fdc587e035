import RlcdDeck.Backup.Plan
import RlcdDeck.StructuredProvider.Equiv.State

/-!
# What an import plans

`planImport` succeeds when every conflict that the preview asks about is decided and nothing else is
(`Decides`), and then every definition and every device profile comes from the side that was chosen
for it (`MergedProviders`, `MergedSettings`).  The loops of the merge are `Indexed.merge`, so that
what they leave is read off the two sides.
-/

namespace RlcdDeck.Backup

open Collections (Indexed byKey lookup_byKey)
open ConfigModel (Network DeviceProfile)
open Json (Bytes bytes)
open StructuredProvider (Configuration Definition State cloneDefinition validateProfiles
  validateState validateState_iff)

/-! ### Valid documents -/

/-- The identifier of a provider. -/
abbrev Provider.id (provider : Provider) : Bytes := provider.definition.id

variable {ids : List Bytes}

theorem validProviders_eq_some {network : Network} {out : List Bytes} {providers : List Provider}
    (h : validProviders network ids providers = some out) :
    out = (providers.map Provider.id).reverse ++ ids ∧ (providers.map Provider.id).Nodup ∧
      ∀ provider ∈ providers, provider.id ∉ ids := by
  induction providers generalizing ids with
  | nil =>
    obtain rfl := Option.some.inj h
    exact ⟨rfl, List.nodup_nil, fun _ hprovider => absurd hprovider List.not_mem_nil⟩
  | cons provider providers ih =>
    unfold validProviders at h
    dsimp only at h
    split_ifs at h with hvalid
    simp only [Bool.and_eq_true, Bool.not_eq_true', List.contains_eq_mem,
      decide_eq_false_iff_not] at hvalid
    obtain ⟨rfl, hnodup, hids⟩ := ih h
    refine ⟨by simp [Provider.id], ?_, List.forall_mem_cons.mpr ⟨hvalid.1.2, fun other hother =>
      fun hmem => hids other hother (List.mem_cons_of_mem _ hmem)⟩⟩
    rw [List.map_cons, List.nodup_cons]
    refine ⟨fun hmem => ?_, hnodup⟩
    obtain ⟨other, hother, heq⟩ := List.mem_map.mp hmem
    exact hids other hother (heq ▸ List.mem_cons_self)

variable {order : List Bytes}

theorem validOrder_iff {ordered : List Bytes} :
    validOrder ids ordered order = true ↔
      (∀ id ∈ order, id ∈ ids) ∧ order.Nodup ∧ ∀ id ∈ order, id ∉ ordered := by
  induction order generalizing ordered with
  | nil => simp [validOrder]
  | cons id order ih =>
    rw [List.forall_mem_cons, List.forall_mem_cons, List.nodup_cons]
    simp only [validOrder, Bool.and_eq_true, List.contains_eq_mem, decide_eq_true_eq,
      Bool.not_eq_true', decide_eq_false_iff_not, ih, List.mem_cons, not_or]
    constructor
    · rintro ⟨⟨hid, hnew⟩, hids, hnodup, hordered⟩
      exact ⟨⟨hid, hids⟩, ⟨fun hmem => (hordered id hmem).1 rfl, hnodup⟩, hnew,
        fun other hother => (hordered other hother).2⟩
    · rintro ⟨⟨hid, hids⟩, ⟨hnot, hnodup⟩, hnew, hordered⟩
      exact ⟨⟨hid, hnew⟩, hids, hnodup, fun other hother =>
        ⟨fun heq => hnot (heq ▸ hother), hordered other hother⟩⟩

theorem nodup_of_validateProfiles {profiles : List DeviceProfile}
    (h : validateProfiles ids profiles = true) :
    (profiles.map DeviceProfile.deviceId).Nodup ∧ ∀ profile ∈ profiles, profile.deviceId ∉ ids := by
  induction profiles generalizing ids with
  | nil => exact ⟨List.nodup_nil, fun _ hprofile => absurd hprofile List.not_mem_nil⟩
  | cons profile profiles ih =>
    simp only [validateProfiles, Bool.and_eq_true, Bool.not_eq_true', List.contains_eq_mem,
      decide_eq_false_iff_not] at h
    obtain ⟨hnodup, hids⟩ := ih h.2
    refine ⟨?_, List.forall_mem_cons.mpr ⟨h.1.2, fun other hother hmem =>
      hids other hother (List.mem_cons_of_mem _ hmem)⟩⟩
    rw [List.map_cons, List.nodup_cons]
    refine ⟨fun hmem => ?_, hnodup⟩
    obtain ⟨other, hother, heq⟩ := List.mem_map.mp hmem
    exact hids other hother (heq ▸ List.mem_cons_self)

/-- What a valid document promises: nothing is in it twice, and its order is one of all its
providers. -/
structure Document.Distinct (document : Document) : Prop where
  providers : (document.providerList.map Provider.id).Nodup
  order : document.order.Perm (document.providerList.map Provider.id)
  devices : (document.profiles.map DeviceProfile.deviceId).Nodup

theorem distinct_of_valid {network : Network} {document : Document}
    (h : validateDocument network document = true) : document.Distinct := by
  unfold validateDocument at h
  rw [Bool.and_eq_true, Bool.and_eq_true, Option.any_eq_true] at h
  obtain ⟨⟨-, ids, hids, hordered⟩, hprofiles⟩ := h
  obtain ⟨rfl, hnodup, -⟩ := validProviders_eq_some hids
  rw [Bool.and_eq_true, beq_iff_eq, validOrder_iff, List.append_nil, List.length_reverse]
    at hordered
  obtain ⟨hlength, hmem, horder, -⟩ := hordered
  refine ⟨hnodup, ?_, (nodup_of_validateProfiles hprofiles).1⟩
  have hsub : document.order.Subperm (document.providerList.map Provider.id) :=
    List.subperm_of_subset horder fun id hid => List.mem_reverse.mp (hmem id hid)
  exact hsub.perm_of_length_le hlength.ge

/-! ### The decisions -/

/-- The decisions are about the conflicts of the preview that need one, each with a legal value. -/
structure Decides (preview : Preview) (decisions : Decisions) : Prop where
  keys : ∀ key, key ∈ decisions ↔
    ∃ conflict ∈ preview.conflicts, conflict.decisionRequired = true ∧ conflict.key = key
  legal : ∀ key decision, decisions.lookup key = some decision →
    decision = .keepCurrent ∨ decision = .useBackup

theorem checkDecisions_eq_some {required left : List Bytes}
    {decisions : List (Sigma fun _ : Bytes => ConflictDecision)}
    (hnodup : (decisions.map Sigma.fst).Nodup) :
    checkDecisions required decisions = some left ↔
      (∀ entry ∈ decisions, entry.1 ∈ required ∧
        (entry.2 = .keepCurrent ∨ entry.2 = .useBackup)) ∧
      left = required.filter (· ∉ decisions.map Sigma.fst) := by
  induction decisions generalizing required with
  | nil => simp [checkDecisions, eq_comm]
  | cons entry decisions ih =>
    obtain ⟨key, decision⟩ := entry
    rw [List.map_cons, List.nodup_cons] at hnodup
    have hcheck : (!required.contains key ||
        (decision != .keepCurrent && decision != .useBackup)) = true ↔
          ¬ (key ∈ required ∧ (decision = .keepCurrent ∨ decision = .useBackup)) := by
      cases decision <;> simp
    have hrest : ∀ other ∈ decisions, other.1 ∈ required.filter (· != key) ↔
        other.1 ∈ required := by
      intro other hother
      have hne : other.1 ≠ key := fun heq => hnodup.1 (List.mem_map.mpr ⟨other, hother, heq⟩)
      simp [hne]
    have hleft : (required.filter (· != key)).filter (· ∉ decisions.map Sigma.fst) =
        required.filter (· ∉ key :: decisions.map Sigma.fst) := by
      rw [List.filter_filter]
      refine List.filter_congr fun other _ => ?_
      simp [bne, Bool.and_comm]
    unfold checkDecisions
    rw [List.forall_mem_cons, List.map_cons]
    by_cases hgood : key ∈ required ∧ (decision = .keepCurrent ∨ decision = .useBackup)
    · rw [if_neg (fun hbad => hcheck.mp hbad hgood), ih hnodup.2, hleft]
      constructor
      · rintro ⟨hall, rfl⟩
        exact ⟨⟨hgood, fun other hother =>
          ⟨(hrest other hother).mp (hall other hother).1, (hall other hother).2⟩⟩, rfl⟩
      · rintro ⟨⟨-, hall⟩, rfl⟩
        exact ⟨fun other hother =>
          ⟨(hrest other hother).mpr (hall other hother).1, (hall other hother).2⟩, rfl⟩
    · rw [if_pos (hcheck.mpr hgood)]
      constructor
      · intro h
        cases h
      · exact fun h => absurd h.1.1 hgood

theorem checkDecisions_eq_nil {required : List Bytes} {decisions : Decisions} :
    checkDecisions required decisions.entries = some [] ↔
      (∀ key, key ∈ decisions ↔ key ∈ required) ∧
      ∀ key decision, decisions.lookup key = some decision →
        decision = .keepCurrent ∨ decision = .useBackup := by
  have hkeys : ∀ key, key ∈ decisions ↔ key ∈ decisions.entries.map Sigma.fst := fun _ => Iff.rfl
  have hlookup : ∀ key decision, decisions.lookup key = some decision ↔
      (⟨key, decision⟩ : Sigma fun _ : Bytes => ConflictDecision) ∈ decisions.entries :=
    fun key decision => AList.mem_lookup_iff
  rw [checkDecisions_eq_some decisions.nodupKeys, eq_comm, List.filter_eq_nil_iff]
  simp only [hkeys, hlookup, decide_eq_true_eq, not_not]
  constructor
  · rintro ⟨hall, hleft⟩
    refine ⟨fun key => ⟨fun hkey => ?_, hleft key⟩, fun key decision hentry =>
      (hall _ hentry).2⟩
    obtain ⟨entry, hentry, rfl⟩ := List.mem_map.mp hkey
    exact (hall entry hentry).1
  · rintro ⟨hiff, hlegal⟩
    exact ⟨fun entry hentry => ⟨(hiff _).mp (List.mem_map_of_mem hentry),
      hlegal _ _ hentry⟩, fun key hkey => (hiff key).mpr hkey⟩

/-! ### Success -/

theorem conflicts_replace {document : Document} {current : Configuration} {preview : Preview}
    (h : previewDocument document current .replace = .ok preview) :
    ∀ conflict ∈ preview.conflicts, conflict.decisionRequired = false := by
  intro conflict hconflict
  unfold previewDocument at h
  rw [if_neg (by decide)] at h
  obtain rfl := Except.ok.inj h
  have hrequired : (ImportMode.replace != .replace) = false := rfl
  have hdevices : (ImportMode.replace == .providersOnly) = false := rfl
  simp only [hrequired, hdevices, Bool.false_and, Bool.false_eq_true, if_false, List.append_nil,
    List.mem_append, List.mem_filterMap, Option.map_eq_some_iff] at hconflict
  rcases hconflict with ((⟨provider, -, existing, -, rfl⟩ | hweb) | happlication) |
    ⟨profile, -, existing, -, rfl⟩
  · rfl
  · split_ifs at hweb
    · rw [List.mem_singleton.mp hweb]
      rfl
    · cases hweb
  · split_ifs at happlication
    · rw [List.mem_singleton.mp happlication]
      rfl
    · cases happlication
  · rfl

theorem planImport_ok {document : Document} {current : Configuration} {mode : ImportMode}
    {decisions : Decisions} {plan : Plan} :
    planImport document current mode decisions = .ok plan ↔
      (∃ preview, previewDocument document current mode = .ok preview ∧
        Decides preview decisions) ∧
      plan = if mode = .replace then planReplace document
        else planMerge document current mode decisions := by
  unfold planImport
  cases hpreview : previewDocument document current mode with
  | error failure => simp
  | ok preview =>
    have hdecides : checkDecisions
        ((preview.conflicts.filter Conflict.decisionRequired).map Conflict.key)
          decisions.entries = some [] ↔ Decides preview decisions := by
      rw [checkDecisions_eq_nil]
      have hrequired : ∀ key, key ∈ (preview.conflicts.filter Conflict.decisionRequired).map
          Conflict.key ↔ ∃ conflict ∈ preview.conflicts,
            conflict.decisionRequired = true ∧ conflict.key = key := by
        intro key
        simp only [List.mem_map, List.mem_filter, and_assoc]
      simp only [hrequired]
      exact ⟨fun h => ⟨h.1, h.2⟩, fun h => ⟨h.keys, h.legal⟩⟩
    have hempty : mode = .replace → Decides preview decisions → decisions.entries = [] := by
      rintro rfl h
      refine List.eq_nil_iff_forall_not_mem.mpr fun entry hentry => ?_
      obtain ⟨conflict, hconflict, hrequired, -⟩ :=
        (h.keys entry.1).mp (List.mem_map_of_mem hentry)
      rw [conflicts_replace hpreview conflict hconflict] at hrequired
      cases hrequired
    dsimp only
    simp only [Except.ok.injEq, exists_eq_left', Bool.and_eq_true, Bool.not_eq_true', beq_iff_eq,
      List.isEmpty_eq_false_iff]
    by_cases hgood : Decides preview decisions
    · rw [if_neg (fun h => h.2 (hempty h.1 hgood)), if_neg (not_not_intro (hdecides.mpr hgood))]
      split_ifs <;> simp [hgood, eq_comm]
    · rw [if_pos (mt hdecides.mp hgood)]
      split_ifs <;> simp [hgood]

/-! ### The providers of a document -/

variable {provider : Provider}

namespace Document.Distinct

variable {document : Document} (h : document.Distinct)

include h

theorem lookup_archive {id : Bytes} :
    (providerArchiveById document.providerList).lookup id = some provider ↔
      provider ∈ document.providerList ∧ provider.id = id :=
  lookup_byKey h.providers

theorem exists_archive {id : Bytes} (hid : id ∈ document.order) :
    ∃ provider ∈ document.providerList, provider.id = id ∧
      (providerArchiveById document.providerList).lookup id = some provider := by
  obtain ⟨provider, hprovider, hkey⟩ := List.mem_map.mp (h.order.mem_iff.mp hid)
  exact ⟨provider, hprovider, hkey, h.lookup_archive.mpr ⟨hprovider, hkey⟩⟩

theorem map_id_providersInOrder : (providersInOrder document).map Provider.id = document.order := by
  rw [providersInOrder, List.map_map]
  refine (List.map_congr_left fun id hid => ?_).trans (List.map_id _)
  obtain ⟨provider, -, hkey, hlookup⟩ := h.exists_archive hid
  rw [Function.comp_apply, hlookup]
  exact hkey

theorem mem_providersInOrder :
    provider ∈ providersInOrder document ↔ provider ∈ document.providerList := by
  rw [providersInOrder, List.mem_map]
  constructor
  · rintro ⟨id, hid, rfl⟩
    obtain ⟨provider, hprovider, -, hlookup⟩ := h.exists_archive hid
    rwa [hlookup]
  · intro hprovider
    have hid : provider.id ∈ document.order :=
      h.order.mem_iff.mpr (List.mem_map_of_mem hprovider)
    refine ⟨provider.id, hid, ?_⟩
    rw [h.lookup_archive.mpr ⟨hprovider, rfl⟩]
    rfl

theorem nodup_order : document.order.Nodup := h.order.nodup_iff.mpr h.providers

end Document.Distinct

/-! ### The merge of the definitions -/

/-- The decision about a provider is to use the one of the backup. -/
def UsesBackup (decisions : Decisions) (id : Bytes) : Prop :=
  decisions.lookup (providerKey id) = some .useBackup

/-- Where the definition of an identifier comes from: the backup, if it alone has it or is to be
used. -/
def FromBackup (document : Document) (current : Configuration) (decisions : Decisions)
    (id : Bytes) : Prop :=
  id ∈ document.order ∧ (id ∉ current.definitions.map Definition.id ∨ UsesBackup decisions id)

/-- Whether the loop puts a definition in place of the current one. -/
def replacesDefinition (decisions : Decisions) (_ definition : Definition) : Bool :=
  decisions.lookup (providerKey definition.id) == some .useBackup

variable {definition : Definition}

theorem replacesDefinition_eq_true {decisions : Decisions} {existing : Definition} :
    replacesDefinition decisions existing definition = true ↔
      UsesBackup decisions definition.id :=
  beq_iff_eq

theorem foldl_definitions (decisions : Decisions) (backupById : AList fun _ : Bytes => Provider)
    (providers : List Provider) (plan : Merging) :
    (providers.foldl (mergeProvider decisions backupById) plan).definitions =
      (providers.map fun provider => cloneDefinition provider.definition).foldl
        (Indexed.merge Definition.id (replacesDefinition decisions)) plan.definitions := by
  induction providers generalizing plan with
  | nil => rfl
  | cons provider providers ih =>
    rw [List.foldl_cons, ih]
    rfl

theorem mergeProvider_definitions (decisions : Decisions)
    (backupById : AList fun _ : Bytes => Provider) (plan : Merging) (provider : Provider) :
    (mergeProvider decisions backupById plan provider).definitions =
      plan.definitions.merge Definition.id (replacesDefinition decisions)
        (cloneDefinition provider.definition) :=
  rfl

theorem mergeProvider_backupProviders {decisions : Decisions}
    {backupById : AList fun _ : Bytes => Provider} {plan : Merging}
    (hplan : plan.definitions.Lawful Definition.id)
    (hbackup : backupById.lookup provider.id = some provider) :
    (provider.id ∉ plan.definitions.items.map Definition.id ∨ UsesBackup decisions provider.id) ∧
        (mergeProvider decisions backupById plan provider).backupProviders =
          plan.backupProviders.insert provider.id provider ∨
    ¬ (provider.id ∉ plan.definitions.items.map Definition.id ∨
        UsesBackup decisions provider.id) ∧
      (mergeProvider decisions backupById plan provider).backupProviders =
        plan.backupProviders := by
  have htaken : ((plan.definitions.index.lookup provider.id).isNone ||
      decisions.lookup (providerKey provider.id) == some .useBackup) = true ↔
        provider.id ∉ plan.definitions.items.map Definition.id ∨
          UsesBackup decisions provider.id := by
    rw [Bool.or_eq_true, Option.isNone_iff_eq_none, hplan.lookup_eq_none, beq_iff_eq]
    rfl
  unfold mergeProvider
  dsimp only
  split_ifs with h
  · refine Or.inl ⟨htaken.mp h, ?_⟩
    rw [hbackup]
    rfl
  · exact Or.inr ⟨mt htaken.mpr h, rfl⟩

theorem foldl_backupProviders {decisions : Decisions}
    {backupById : AList fun _ : Bytes => Provider} {providers : List Provider} {plan : Merging}
    (hplan : plan.definitions.Lawful Definition.id) (hnodup : (providers.map Provider.id).Nodup)
    (hbackup : ∀ provider ∈ providers, backupById.lookup provider.id = some provider)
    {id : Bytes} {provider : Provider} :
    (providers.foldl (mergeProvider decisions backupById) plan).backupProviders.lookup id =
        some provider ↔
      (provider ∈ providers ∧ provider.id = id ∧
        (id ∉ plan.definitions.items.map Definition.id ∨ UsesBackup decisions id)) ∨
      plan.backupProviders.lookup id = some provider ∧ ¬ ∃ other ∈ providers, other.id = id ∧
        (id ∉ plan.definitions.items.map Definition.id ∨ UsesBackup decisions id) := by
  induction providers generalizing plan with
  | nil => simp
  | cons head providers ih =>
    rw [List.map_cons, List.nodup_cons] at hnodup
    rw [List.forall_mem_cons] at hbackup
    have hrest : ∀ other ∈ providers, other.id ≠ head.id :=
      fun other hother heq => hnodup.1 (heq ▸ List.mem_map_of_mem hother)
    have hdefinitions := mergeProvider_definitions decisions backupById plan head
    have hlawful : (mergeProvider decisions backupById plan head).definitions.Lawful
        Definition.id := by
      rw [hdefinitions]
      exact hplan.merge _
    rw [List.foldl_cons, ih hlawful hnodup.2 hbackup.2, hdefinitions, hplan.mem_keys_merge]
    by_cases hid : id = head.id
    · subst hid
      have hnone : ∀ other ∈ providers, other.id = head.id → False :=
        fun other hother heq => hrest other hother heq
      rcases mergeProvider_backupProviders hplan hbackup.1 with ⟨htaken, hinsert⟩ | ⟨hnot, hsame⟩
      · rw [hinsert, AList.lookup_insert, Option.some_inj]
        constructor
        · rintro (⟨hmem, hkey, -⟩ | ⟨rfl, -⟩)
          · exact (hnone _ hmem hkey).elim
          · exact Or.inl ⟨List.mem_cons_self, rfl, htaken⟩
        · rintro (⟨hmem, hkey, -⟩ | ⟨-, hnot⟩)
          · rcases List.mem_cons.mp hmem with rfl | hmem
            · exact Or.inr ⟨rfl, fun ⟨other, hother, heq, _⟩ => hnone other hother heq⟩
            · exact (hnone _ hmem hkey).elim
          · exact absurd ⟨head, List.mem_cons_self, rfl, htaken⟩ hnot
      · rw [hsame]
        constructor
        · rintro (⟨hmem, hkey, -⟩ | ⟨hlookup, -⟩)
          · exact (hnone _ hmem hkey).elim
          · exact Or.inr ⟨hlookup, fun ⟨other, _, _, htaken⟩ => hnot htaken⟩
        · rintro (⟨-, -, htaken⟩ | ⟨hlookup, -⟩)
          · exact absurd htaken hnot
          · exact Or.inr ⟨hlookup, fun ⟨other, hother, heq, _⟩ => hnone other hother heq⟩
    · have hmem : (id ∈ plan.definitions.items.map Definition.id ∨
          id = (cloneDefinition head.definition).id) ↔
            id ∈ plan.definitions.items.map Definition.id :=
        or_iff_left hid
      have hlookup : (mergeProvider decisions backupById plan head).backupProviders.lookup id =
          plan.backupProviders.lookup id := by
        rcases mergeProvider_backupProviders hplan hbackup.1 with ⟨-, hinsert⟩ | ⟨-, hsame⟩
        · rw [hinsert, AList.lookup_insert_ne hid]
        · rw [hsame]
      have hcons : ∀ other : Provider, (other ∈ head :: providers ∧ other.id = id) ↔
          other ∈ providers ∧ other.id = id := by
        intro other
        rw [List.mem_cons, and_congr_left_iff]
        intro heq
        refine or_iff_right ?_
        rintro rfl
        exact hid heq.symm
      simp only [hlookup, hmem, ← and_assoc, hcons]

theorem cloneDefinition_idem (definition : Definition) :
    cloneDefinition (cloneDefinition definition) = cloneDefinition definition := by
  have hheaders := StructuredProvider.headers_cloneDefinition definition
  rw [cloneDefinition, hheaders]
  rfl

/-- `definitionsInOrder`, in an order of all of them. -/
theorem definitionsInOrder_spec {definitions : List Definition}
    (hnodup : (definitions.map Definition.id).Nodup)
    (hperm : order.Perm (definitions.map Definition.id)) :
    (definitionsInOrder definitions order).map Definition.id = order ∧
      ∀ definition, definition ∈ definitionsInOrder definitions order ↔
        ∃ source ∈ definitions, cloneDefinition source = definition := by
  have hlookup : ∀ id source, (byKey Definition.id definitions).lookup id = some source ↔
      source ∈ definitions ∧ source.id = id := fun id source => lookup_byKey hnodup
  unfold definitionsInOrder
  constructor
  · have hall : ∀ id ∈ order, ∃ source, (byKey Definition.id definitions).lookup id =
        some source ∧ source.id = id := by
      intro id hid
      obtain ⟨source, hsource, hkey⟩ := List.mem_map.mp (hperm.mem_iff.mp hid)
      exact ⟨source, (hlookup id source).mpr ⟨hsource, hkey⟩, hkey⟩
    clear hperm
    induction order with
    | nil => rfl
    | cons id order ih =>
      obtain ⟨source, hsource, hkey⟩ := hall id List.mem_cons_self
      have hrest := ih fun other hother => hall other (List.mem_cons_of_mem _ hother)
      dsimp only at hrest ⊢
      rw [List.filterMap_cons, hsource, Option.map_some, List.map_cons, hrest]
      exact congrArg (· :: order) hkey
  · intro definition
    dsimp only
    rw [List.mem_filterMap]
    constructor
    · rintro ⟨id, -, hid⟩
      obtain ⟨source, hsource, rfl⟩ := Option.map_eq_some_iff.mp hid
      exact ⟨source, ((hlookup _ _).mp hsource).1, rfl⟩
    · rintro ⟨source, hsource, rfl⟩
      refine ⟨source.id, hperm.mem_iff.mpr (List.mem_map_of_mem hsource), ?_⟩
      rw [(hlookup _ _).mpr ⟨hsource, rfl⟩]
      rfl

theorem providerOrderChoices_perm {current : List Definition}
    (hcurrent : (current.map Definition.id).Nodup) (horder : order.Nodup) :
    (providerOrderChoices current order).2.Perm (providerOrderChoices current order).1 ∧
      (providerOrderChoices current order).1.Nodup ∧
      ∀ id, id ∈ (providerOrderChoices current order).1 ↔
        id ∈ current.map Definition.id ∨ id ∈ order := by
  have hmem : ∀ id, id ∈ (providerOrderChoices current order).1 ↔
      id ∈ current.map Definition.id ∨ id ∈ order := by
    intro id
    simp only [providerOrderChoices, List.mem_append, List.mem_filter, List.contains_eq_mem,
      Bool.not_eq_true', decide_eq_false_iff_not]
    tauto
  have hmem' : ∀ id, id ∈ (providerOrderChoices current order).2 ↔
      id ∈ current.map Definition.id ∨ id ∈ order := by
    intro id
    simp only [providerOrderChoices, List.mem_append, List.mem_filter, List.contains_eq_mem,
      Bool.not_eq_true', decide_eq_false_iff_not]
    tauto
  have happend : ∀ a b : List Bytes, a.Nodup → b.Nodup → (a ++ b.filter (!a.contains ·)).Nodup := by
    intro a b ha hb
    refine List.nodup_append.mpr ⟨ha, hb.filter _, fun id hid other hother heq => ?_⟩
    subst heq
    simp [hid] at hother
  have hkeep : (providerOrderChoices current order).1.Nodup := happend _ _ hcurrent horder
  have hbackup : (providerOrderChoices current order).2.Nodup := happend _ _ horder hcurrent
  refine ⟨?_, hkeep, hmem⟩
  rw [List.perm_ext_iff_of_nodup hbackup hkeep]
  exact fun id => (hmem' id).trans (hmem id).symm

/-- What the plan makes of the providers: those of both sides, each once and in the order that was
chosen, and each from the side that was chosen. -/
structure MergedProviders (document : Document) (current : Configuration) (decisions : Decisions)
    (plan : Plan) : Prop where
  order : plan.configuration.definitions.map Definition.id =
    if decisions.lookup orderKey = some .useBackup then
      (providerOrderChoices current.definitions document.order).2
    else (providerOrderChoices current.definitions document.order).1
  distinct : (plan.configuration.definitions.map Definition.id).Nodup
  union : ∀ id, id ∈ plan.configuration.definitions.map Definition.id ↔
    id ∈ current.definitions.map Definition.id ∨ id ∈ document.providerList.map Provider.id
  backup : ∀ definition ∈ plan.configuration.definitions,
    FromBackup document current decisions definition.id →
      ∃ provider ∈ document.providerList, provider.id = definition.id ∧
        definition = cloneDefinition provider.definition
  kept : ∀ definition ∈ plan.configuration.definitions,
    ¬ FromBackup document current decisions definition.id → definition ∈ current.definitions
  providers : ∀ id provider, plan.backupProviders.lookup id = some provider ↔
    FromBackup document current decisions id ∧ provider ∈ document.providerList ∧ provider.id = id

section

variable {document : Document} {current : Configuration} {decisions : Decisions}

/-- The definitions of the document, in its order. -/
def backupDefinitions (document : Document) : List Definition :=
  (providersInOrder document).map fun provider => cloneDefinition provider.definition

/-- `definitions` and `backupProviders` after the loop. -/
def mergedProviders (document : Document) (current : Configuration) (decisions : Decisions) :
    Merging :=
  (providersInOrder document).foldl
    (mergeProvider decisions (providerArchiveById document.providerList))
    ⟨Indexed.ofList Definition.id current.definitions, ∅⟩

theorem mergedProviders_definitions : (mergedProviders document current decisions).definitions =
    (backupDefinitions document).foldl
      (Indexed.merge Definition.id (replacesDefinition decisions))
      (Indexed.ofList Definition.id current.definitions) :=
  foldl_definitions ..

variable (hdocument : document.Distinct)

include hdocument

theorem ids_backupDefinitions :
    (backupDefinitions document).map Definition.id = document.order := by
  rw [backupDefinitions, List.map_map, ← hdocument.map_id_providersInOrder]
  rfl

theorem mem_backupDefinitions :
    definition ∈ backupDefinitions document ↔
      ∃ provider ∈ document.providerList, cloneDefinition provider.definition = definition := by
  simp only [backupDefinitions, List.mem_map, hdocument.mem_providersInOrder]

theorem nodup_backupDefinitions : ((backupDefinitions document).map Definition.id).Nodup := by
  rw [ids_backupDefinitions hdocument]
  exact hdocument.nodup_order

variable (hcurrent : (current.definitions.map Definition.id).Nodup)

include hcurrent

theorem mergedProviders_ids :
    (mergedProviders document current decisions).definitions.items.map Definition.id =
      (providerOrderChoices current.definitions document.order).1 := by
  rw [mergedProviders_definitions,
    (Indexed.lawful_ofList hcurrent).keys_merged (nodup_backupDefinitions hdocument),
    Indexed.ofList_items, ids_backupDefinitions hdocument]
  refine congrArg _ (List.filter_congr fun id _ => ?_)
  rw [List.contains_eq_mem, ← decide_not]
  exact decide_eq_decide.mpr Iff.rfl

theorem mem_mergedProviders :
    definition ∈ (mergedProviders document current decisions).definitions.items ↔
      (FromBackup document current decisions definition.id ∧
        ∃ provider ∈ document.providerList, cloneDefinition provider.definition = definition) ∨
      ¬ FromBackup document current decisions definition.id ∧
        definition ∈ current.definitions := by
  rw [mergedProviders_definitions,
    (Indexed.lawful_ofList hcurrent).mem_merged (nodup_backupDefinitions hdocument),
    Indexed.ofList_items, ← mem_backupDefinitions hdocument]
  have horder : ∀ id, id ∈ document.order ↔ ∃ source ∈ backupDefinitions document, source.id = id := by
    intro id
    rw [← ids_backupDefinitions hdocument, List.mem_map]
  have huse : ∀ source : Definition, replacesDefinition decisions definition source = false ↔
      ¬ UsesBackup decisions source.id := by
    intro source
    rw [← replacesDefinition_eq_true, Bool.not_eq_true]
  have hput : definition.id ∉ current.definitions.map Definition.id ∨
      (∃ c ∈ current.definitions, c.id = definition.id ∧
        replacesDefinition decisions c definition = true) ↔
      definition.id ∉ current.definitions.map Definition.id ∨
        UsesBackup decisions definition.id := by
    simp only [replacesDefinition_eq_true]
    by_cases hmem : definition.id ∈ current.definitions.map Definition.id
    · obtain ⟨c, hc, hkey⟩ := List.mem_map.mp hmem
      exact or_congr_right ⟨fun ⟨_, _, _, h⟩ => h, fun h => ⟨c, hc, hkey, h⟩⟩
    · exact ⟨fun _ => Or.inl hmem, fun _ => Or.inl hmem⟩
  rw [hput, FromBackup]
  constructor
  · rintro (⟨hbackup, htaken⟩ | ⟨hmem, hkept⟩)
    · exact Or.inl ⟨⟨(horder _).mpr ⟨definition, hbackup, rfl⟩, htaken⟩, hbackup⟩
    · refine Or.inr ⟨?_, hmem⟩
      rintro ⟨hid, hnew | hused⟩
      · exact hnew (List.mem_map_of_mem hmem)
      · obtain ⟨source, hsource, hkey⟩ := (horder _).mp hid
        exact (huse source).mp (hkept source hsource hkey) (hkey ▸ hused)
  · rintro (⟨⟨-, htaken⟩, hbackup⟩ | ⟨hnot, hmem⟩)
    · exact Or.inl ⟨hbackup, htaken⟩
    · refine Or.inr ⟨hmem, fun source hsource hkey => (huse source).mpr fun hused => ?_⟩
      exact hnot ⟨(horder _).mpr ⟨source, hsource, hkey⟩, Or.inr (hkey ▸ hused)⟩

omit hdocument hcurrent in
theorem planMerge_definitions (hclone : current.clone = current) (mode : ImportMode) :
    (planMerge document current mode decisions).configuration.definitions =
      if decisions.lookup orderKey = some .useBackup then
        definitionsInOrder (mergedProviders document current decisions).definitions.items
          (providerOrderChoices current.definitions document.order).2
      else (mergedProviders document current decisions).definitions.items := by
  unfold planMerge mergedProviders
  simp only [hclone, beq_iff_eq]
  split_ifs <;> rfl

theorem planMerge_spec (hclone : current.clone = current) (mode : ImportMode)
    (decisions : Decisions) :
    (planMerge document current mode decisions).configuration.definitions.map Definition.id =
      (if decisions.lookup orderKey = some .useBackup then
        (providerOrderChoices current.definitions document.order).2
      else (providerOrderChoices current.definitions document.order).1) ∧
    ∀ definition,
      definition ∈ (planMerge document current mode decisions).configuration.definitions ↔
        definition ∈ (mergedProviders document current decisions).definitions.items := by
  have hids : (mergedProviders document current decisions).definitions.items.map Definition.id =
      (providerOrderChoices current.definitions document.order).1 :=
    mergedProviders_ids hdocument hcurrent
  rw [planMerge_definitions hclone]
  split_ifs with horder
  · obtain ⟨hperm, hnodup, -⟩ := providerOrderChoices_perm hcurrent hdocument.nodup_order
    obtain ⟨hordered, hmem⟩ := definitionsInOrder_spec (hids ▸ hnodup) (hids ▸ hperm)
    refine ⟨hordered, fun definition => (hmem definition).trans ?_⟩
    have hcloned : ∀ source ∈ (mergedProviders document current decisions).definitions.items,
        cloneDefinition source = source := by
      intro source hsource
      rcases (mem_mergedProviders hdocument hcurrent).mp hsource with
        ⟨-, provider, -, rfl⟩ | ⟨-, hmem⟩
      · exact cloneDefinition_idem _
      · have hmap : current.definitions.map cloneDefinition = current.definitions :=
          congrArg Configuration.definitions hclone
        exact List.map_inj_left.mp (hmap.trans (List.map_id _).symm) source hmem
    constructor
    · rintro ⟨source, hsource, rfl⟩
      rwa [hcloned source hsource]
    · exact fun hdefinition => ⟨definition, hdefinition, hcloned definition hdefinition⟩
  · exact ⟨hids, fun _ => Iff.rfl⟩

theorem mem_backupProviders (hclone : current.clone = current) (mode : ImportMode) (id : Bytes)
    (provider : Provider) :
    (planMerge document current mode decisions).backupProviders.lookup id = some provider ↔
      FromBackup document current decisions id ∧ provider ∈ document.providerList ∧
        provider.id = id := by
  have hplan : (planMerge document current mode decisions).backupProviders =
      (mergedProviders document current decisions).backupProviders := by
    unfold planMerge mergedProviders
    simp only [hclone]
  have hnodup : ((providersInOrder document).map Provider.id).Nodup :=
    hdocument.map_id_providersInOrder.symm ▸ hdocument.nodup_order
  rw [hplan, mergedProviders, foldl_backupProviders (Indexed.lawful_ofList hcurrent) hnodup
    fun provider hprovider => hdocument.lookup_archive.mpr
      ⟨hdocument.mem_providersInOrder.mp hprovider, rfl⟩]
  rw [Indexed.ofList_items, hdocument.mem_providersInOrder, AList.lookup_empty, FromBackup,
    hdocument.order.mem_iff]
  constructor
  · rintro (⟨hprovider, rfl, htaken⟩ | ⟨hnone, -⟩)
    · exact ⟨⟨List.mem_map_of_mem hprovider, htaken⟩, hprovider, rfl⟩
    · cases hnone
  · rintro ⟨⟨-, htaken⟩, hprovider, hid⟩
    exact Or.inl ⟨hprovider, hid, htaken⟩

theorem planMerge_mergedProviders (hclone : current.clone = current) (mode : ImportMode) :
    MergedProviders document current decisions (planMerge document current mode decisions) := by
  obtain ⟨hids, hmem⟩ := planMerge_spec hdocument hcurrent hclone mode decisions
  obtain ⟨hperm, hnodup, hunion⟩ := providerOrderChoices_perm hcurrent hdocument.nodup_order
  have hperm' : ((planMerge document current mode decisions).configuration.definitions.map
      Definition.id).Perm (providerOrderChoices current.definitions document.order).1 := by
    rw [hids]
    split_ifs
    · exact hperm
    · exact List.Perm.refl _
  exact {
    order := hids
    distinct := hperm'.nodup_iff.mpr hnodup
    union := fun id => by
      rw [hperm'.mem_iff, hunion, hdocument.order.mem_iff]
    backup := fun definition hdefinition hbackup => by
      rw [hmem, mem_mergedProviders hdocument hcurrent] at hdefinition
      obtain ⟨-, provider, hprovider, rfl⟩ | ⟨hnot, -⟩ := hdefinition
      · exact ⟨provider, hprovider, rfl, rfl⟩
      · exact absurd hbackup hnot
    kept := fun definition hdefinition hkept => by
      rw [hmem, mem_mergedProviders hdocument hcurrent] at hdefinition
      exact hdefinition.elim (fun h => absurd h.1 hkept) And.right
    providers := mem_backupProviders hdocument hcurrent hclone mode }

end

/-! ### The merge of the settings -/

/-- Where the profile of a device comes from: the backup, if it alone has it or is to be used. -/
def DeviceFromBackup (document : Document) (current : Configuration) (decisions : Decisions)
    (id : Bytes) : Prop :=
  id ∈ document.profiles.map DeviceProfile.deviceId ∧
    (id ∉ current.deviceProfiles.map DeviceProfile.deviceId ∨
      decisions.lookup (deviceKey id) = some .useBackup)

/-- What the plan of a merge makes of the settings and of the device profiles. -/
structure MergedSettings (document : Document) (current : Configuration) (decisions : Decisions)
    (plan : Plan) : Prop where
  web : plan.configuration.webSettings =
    if decisions.lookup webSettingsKey = some .useBackup then document.webSettings
    else current.webSettings
  application : plan.configuration.applicationSettings =
    if decisions.lookup applicationSettingsKey = some .useBackup then document.applicationSettings
    else current.applicationSettings
  sorted : plan.configuration.deviceProfiles.Pairwise fun a b => a.deviceId < b.deviceId
  devices : ∀ profile, profile ∈ plan.configuration.deviceProfiles ↔
    DeviceFromBackup document current decisions profile.deviceId ∧ profile ∈ document.profiles ∨
      ¬ DeviceFromBackup document current decisions profile.deviceId ∧
        profile ∈ current.deviceProfiles

/-- What a plan for the providers alone does not touch. -/
structure Untouched (current : Configuration) (plan : Plan) : Prop where
  web : plan.configuration.webSettings = current.webSettings
  application : plan.configuration.applicationSettings = current.applicationSettings
  devices : plan.configuration.deviceProfiles = current.deviceProfiles

instance : Std.Total fun left right : DeviceProfile => left.deviceId ≤ right.deviceId :=
  ⟨fun left right => List.le_total left.deviceId right.deviceId⟩

instance : IsTrans DeviceProfile fun left right => left.deviceId ≤ right.deviceId :=
  ⟨fun _ _ _ => List.le_trans⟩

theorem pairwise_mergeDeviceProfiles {current fromBackup : List DeviceProfile} {decisions : Decisions}
    (hdevices : (current.map DeviceProfile.deviceId).Nodup) :
    (mergeDeviceProfiles current fromBackup decisions).Pairwise
      fun a b => a.deviceId < b.deviceId := by
  unfold mergeDeviceProfiles
  dsimp only
  have hnodup := fun replaces : DeviceProfile → DeviceProfile → Bool =>
    ((List.perm_insertionSort (fun left right : DeviceProfile => left.deviceId ≤ right.deviceId)
      (fromBackup.foldl (Indexed.merge DeviceProfile.deviceId replaces)
        (Indexed.ofList DeviceProfile.deviceId current)).items).map
          DeviceProfile.deviceId).nodup_iff.mpr (Indexed.lawful_ofList hdevices).merged.nodup
  exact ((List.pairwise_insertionSort _ _).and (List.pairwise_map.mp (hnodup _))).imp
    fun h => Std.lt_of_le_of_ne h.1 h.2

theorem setting_eq {α : Type} [DecidableEq α] (mine theirs : α) (decision : Option ConflictDecision) :
    (if mine != theirs && decision == some .useBackup then theirs else mine) =
      if decision = some .useBackup then theirs else mine := by
  by_cases hsame : mine = theirs
  · simp [hsame]
  · simp [bne_iff_ne.mpr hsame]

section

variable {document : Document} {current : Configuration} {decisions : Decisions}
  (hdocument : document.Distinct)
  (hdevices : (current.deviceProfiles.map DeviceProfile.deviceId).Nodup)

include hdocument hdevices

theorem mem_mergeDeviceProfiles {profile : DeviceProfile} :
    profile ∈ mergeDeviceProfiles current.deviceProfiles document.profiles decisions ↔
      DeviceFromBackup document current decisions profile.deviceId ∧ profile ∈ document.profiles ∨
        ¬ DeviceFromBackup document current decisions profile.deviceId ∧
          profile ∈ current.deviceProfiles := by
  unfold mergeDeviceProfiles
  dsimp only
  rw [List.mem_insertionSort, (Indexed.lawful_ofList hdevices).mem_merged hdocument.devices,
    Indexed.ofList_items, DeviceFromBackup]
  simp only [Bool.or_eq_true, beq_iff_eq, Bool.or_eq_false_iff, beq_eq_false_iff_ne]
  have hmap : ∀ profiles : List DeviceProfile, ∀ profile ∈ profiles,
      profile.deviceId ∈ profiles.map DeviceProfile.deviceId :=
    fun _ _ => List.mem_map_of_mem
  constructor
  · rintro (⟨hbackup, hnew | ⟨c, hc, hkey, rfl | hused⟩⟩ | ⟨hmem, hkept⟩)
    · exact Or.inl ⟨⟨hmap _ _ hbackup, Or.inl hnew⟩, hbackup⟩
    · by_cases hfrom : DeviceFromBackup document current decisions c.deviceId
      · exact Or.inl ⟨hfrom, hbackup⟩
      · exact Or.inr ⟨hfrom, hc⟩
    · exact Or.inl ⟨⟨hmap _ _ hbackup, Or.inr hused⟩, hbackup⟩
    · refine Or.inr ⟨?_, hmem⟩
      rintro ⟨hid, hnew | hused⟩
      · exact hnew (hmap _ _ hmem)
      · obtain ⟨other, hother, hkey⟩ := List.mem_map.mp hid
        exact (hkept other hother hkey).2 (hkey ▸ hused)
  · rintro (⟨⟨-, htaken⟩, hbackup⟩ | ⟨hnot, hmem⟩)
    · refine Or.inl ⟨hbackup, ?_⟩
      by_cases hid : profile.deviceId ∈ current.deviceProfiles.map DeviceProfile.deviceId
      · obtain ⟨c, hc, hkey⟩ := List.mem_map.mp hid
        exact Or.inr ⟨c, hc, hkey, Or.inr (htaken.resolve_left (not_not_intro hid))⟩
      · exact Or.inl hid
    · by_cases hbackup : profile ∈ document.profiles
      · exact Or.inl ⟨hbackup, Or.inr ⟨profile, hmem, rfl, Or.inl rfl⟩⟩
      · refine Or.inr ⟨hmem, fun other hother hkey => ⟨?_, fun hused => ?_⟩⟩
        · rintro rfl
          exact hbackup hother
        · exact hnot ⟨hkey ▸ hmap _ _ hother, Or.inr (hkey ▸ hused)⟩

theorem planMerge_mergedSettings :
    MergedSettings document current decisions
      (planMerge document current .merge decisions) := by
  have hplan : (planMerge document current .merge decisions).configuration.deviceProfiles =
      mergeDeviceProfiles current.deviceProfiles document.profiles decisions := rfl
  refine ⟨?_, ?_, hplan ▸ pairwise_mergeDeviceProfiles hdevices,
    fun profile => hplan ▸ mem_mergeDeviceProfiles hdocument hdevices⟩
  · exact setting_eq current.webSettings document.webSettings _
  · exact setting_eq current.applicationSettings document.applicationSettings _

end

theorem planMerge_untouched {document : Document} {current : Configuration}
    {decisions : Decisions} :
    Untouched current (planMerge document current .providersOnly decisions) :=
  ⟨rfl, rfl, rfl⟩

/-! ### Every import -/

theorem configuration_clone (state : State) :
    state.configuration.clone = state.configuration := by
  unfold State.configuration Configuration.clone
  dsimp only
  rw [List.map_map]
  congr 1
  exact List.map_congr_left fun definition _ => cloneDefinition_idem definition

theorem previewDocument_ok {document : Document} {current : Configuration} {mode : ImportMode}
    {preview : Preview} (h : previewDocument document current mode = .ok preview) :
    validMode mode = true := by
  cases hmode : validMode mode with
  | true => rfl
  | false =>
    rw [previewDocument, hmode] at h
    cases h

/-- The plan for a valid document and the configuration of a valid store: there is one exactly when
the mode is valid and the decisions are about the conflicts of the preview, and it takes every
definition, every profile and every setting from the side that was chosen for it. -/
theorem planImport_plans {network : Network} {document : Document} {state : State}
    (hdocument : validateDocument network document = true)
    (hstate : validateState network state = true) (mode : ImportMode) (decisions : Decisions) :
    ((∃ plan, planImport document state.configuration mode decisions = .ok plan) ↔
      validMode mode = true ∧ ∃ preview,
        previewDocument document state.configuration mode = .ok preview ∧
          Decides preview decisions) ∧
    ∀ plan, planImport document state.configuration mode decisions = .ok plan →
      (mode = .merge ∨ mode = .providersOnly →
        MergedProviders document state.configuration decisions plan) ∧
      (mode = .merge → MergedSettings document state.configuration decisions plan) ∧
      (mode = .providersOnly → Untouched state.configuration plan) := by
  have hdistinct := distinct_of_valid hdocument
  have hvalid := validateState_iff.mp hstate
  have hids : (state.configuration.definitions.map Definition.id).Nodup := by
    have hsame : state.configuration.definitions.map Definition.id =
        state.definitions.map Definition.id := by
      rw [State.configuration, List.map_map]
      rfl
    exact hsame ▸ hvalid.ids
  have hdevices := (nodup_of_validateProfiles hvalid.profiles).1
  constructor
  · constructor
    · rintro ⟨plan, hplan⟩
      obtain ⟨⟨preview, hpreview, hdecides⟩, -⟩ := planImport_ok.mp hplan
      exact ⟨previewDocument_ok hpreview, preview, hpreview, hdecides⟩
    · exact fun h => ⟨_, planImport_ok.mpr ⟨h.2, rfl⟩⟩
  · intro plan hplan
    obtain ⟨-, rfl⟩ := planImport_ok.mp hplan
    refine ⟨?_, ?_, ?_⟩
    · intro hmode
      rw [if_neg (by rintro rfl; simp at hmode)]
      exact planMerge_mergedProviders hdistinct hids (configuration_clone state) mode
    · rintro rfl
      exact planMerge_mergedSettings hdistinct hdevices
    · rintro rfl
      exact planMerge_untouched

/-- A network on which the management address and the target `https://h` are what they say. -/
def exampleNetwork : Network where
  splitHostPort _ := some (bytes "127.0.0.1", bytes "7777")
  parseIp host :=
    if host = bytes "127.0.0.1" then some (List.replicate 10 0 ++ [0xff, 0xff, 127, 0, 0, 1])
    else none
  parseUrl _ := some ⟨bytes "https", bytes "h", bytes "h", false, [], [], []⟩

def exampleDefinition (id displayName : Bytes) (headers : Option (List StructuredProvider.Header)) :
    Definition where
  id := id
  displayName := displayName
  experimental := false
  request := ⟨bytes "GET", bytes "https://h", headers, []⟩
  mapping := ⟨bytes "$.b", [], [], [], [], bytes "USD", 0, [], []⟩
  refreshMinutes := 5
  requestTimeoutSeconds := 10
  maximumResponseBytes := 262144

/-- A store with the provider `p`, and an archive with another `p` and a new `q`. -/
def exampleState : State :=
  { StructuredProvider.emptyState with
    definitions := [exampleDefinition (bytes "p") (bytes "Current") (some [])] }

def exampleDocument : Document where
  type := archiveType
  schemaVersion := ⟨1, 1⟩
  exportedAt := bytes "2026-01-02T03:04:05Z"
  providers := some [⟨exampleDefinition (bytes "p") (bytes "Backup") none, []⟩,
    ⟨exampleDefinition (bytes "q") (bytes "New") none, []⟩]
  providerOrder := some [bytes "q", bytes "p"]
  webSettings := StructuredProvider.emptyState.webSettings
  applicationSettings := ⟨true, none⟩
  deviceProfiles := some []

def exampleDecisions : Decisions :=
  ((∅ : Decisions).insert (providerKey (bytes "p")) .useBackup).insert orderKey .useBackup

/-- The providers in the order of the archive, with its `p`. -/
theorem planImport_plans_merge : ∃ plan,
    planImport exampleDocument exampleState.configuration .merge exampleDecisions = .ok plan ∧
      MergedProviders exampleDocument exampleState.configuration exampleDecisions plan ∧
      plan.configuration.definitions.map Definition.displayName =
        [bytes "New", bytes "Backup"] := by
  have hdocument : validateDocument exampleNetwork exampleDocument = true := by decide +kernel
  have hstate : validateState exampleNetwork exampleState = true := by decide +kernel
  have hplan : planImport exampleDocument exampleState.configuration .merge exampleDecisions =
      .ok (planMerge exampleDocument exampleState.configuration .merge exampleDecisions) := by
    have hok : (planImport exampleDocument exampleState.configuration .merge
        exampleDecisions).isOk = true := by decide +kernel
    cases h : planImport exampleDocument exampleState.configuration .merge exampleDecisions with
    | error failure =>
      rw [h] at hok
      cases hok
    | ok plan => rw [(planImport_ok.mp h).2, if_neg (by decide)]
  have hnames : (planMerge exampleDocument exampleState.configuration .merge
      exampleDecisions).configuration.definitions.map Definition.displayName =
        [bytes "New", bytes "Backup"] := by decide +kernel
  exact ⟨_, hplan, ((planImport_plans hdocument hstate .merge exampleDecisions).2 _ hplan).1
    (Or.inl rfl), hnames⟩

end RlcdDeck.Backup

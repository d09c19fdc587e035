import Mathlib.Data.List.Nodup
import Mathlib.Data.List.Pairwise
import Mathlib.Data.Prod.Lex
import Mathlib.Algebra.Order.Monoid.Unbundled.WithTop
import RlcdDeck.AiSnapshot.Equiv.Accepted
import RlcdDeck.Collections.KeepBest
import RlcdDeck.Json.Print

/-!
# The featured session

`session_is_better` compares a linear key (`rank`): the priority, then the last activity, then the
identity, smaller identities first.  The sessions of an accepted document have different
identities, so their keys differ, and the loop of `project_codex` features the one with the
largest key, wherever it stands (`featured_order_independent`).
-/

namespace RlcdDeck.AiSnapshot

open Json (Bytes Tree bytes)
open Document (decodeAscii stringEquals field)
open Collections

/-! ### The order -/

/-- Sessions are compared by these; what is not there comes last. -/
abbrev Rank := WithBot (ℕ ×ₗ WithBot ℕ ×ₗ (List ℕ)ᵒᵈ)

/-- The last activity, if there was any. -/
def SessionProjection.lastActivity (s : SessionProjection) : WithBot ℕ :=
  match s.lastActivityAtUnixMs with
  | none => ⊥
  | some time => (time.toNat : WithBot ℕ)

def SessionProjection.rank (s : SessionProjection) : Rank :=
  if s.present then
    ((toLex (sessionPriority s.state,
      toLex (s.lastActivity, OrderDual.toDual ((cString s.sessionId).map UInt8.toNat))) :
        ℕ ×ₗ WithBot ℕ ×ₗ (List ℕ)ᵒᵈ) : Rank)
  else ⊥

theorem strcmpLess_iff (left right : Bytes) : strcmpLess left right = true ↔
    OrderDual.toDual ((cString right).map UInt8.toNat) <
      OrderDual.toDual ((cString left).map UInt8.toNat) := by
  unfold strcmpLess
  rw [decide_eq_true_eq, OrderDual.toDual_lt_toDual]

/-- **`session_is_better` compares ranks.** -/
theorem sessionIsBetter_iff {candidate : SessionProjection} (h : candidate.present = true)
    (current : SessionProjection) :
    sessionIsBetter candidate current = true ↔ current.rank < candidate.rank := by
  unfold sessionIsBetter SessionProjection.rank
  cases hpresent : current.present with
  | false => simp [h]
  | true =>
    rw [if_pos h, if_pos rfl, WithBot.coe_lt_coe, Prod.Lex.toLex_lt_toLex]
    simp only [Bool.not_true, Bool.false_eq_true, if_false]
    by_cases hpriority : sessionPriority candidate.state = sessionPriority current.state
    · rw [if_neg (not_not.mpr hpriority)]
      simp only [hpriority, lt_self_iff_false, true_and, false_or, Prod.Lex.toLex_lt_toLex]
      unfold SessionProjection.lastActivity
      cases candidate.lastActivityAtUnixMs with
      | none =>
        cases current.lastActivityAtUnixMs with
        | none => simp [strcmpLess_iff]
        | some currentTime => simp
      | some candidateTime =>
        cases current.lastActivityAtUnixMs with
        | none => simp
        | some currentTime =>
          by_cases htime : candidateTime = currentTime
          · simp [htime, strcmpLess_iff]
          · have hne : currentTime.toNat ≠ candidateTime.toNat := fun heq =>
              htime (UInt64.toNat_inj.mp heq).symm
            simp [htime, hne, UInt64.lt_iff_toNat_lt]
    · rw [if_pos hpriority, decide_eq_true_eq]
      simp [Ne.symm hpriority]

/-! ### Identities -/

instance : Std.Symm Distinct := ⟨fun _ _ h s t hs ht => (h t s ht hs).symm⟩

theorem cString_append_zeros (text : Bytes) (count : ℕ) :
    cString (text ++ List.replicate count 0) = cString text := by
  unfold cString
  induction text with
  | nil => cases count <;> rfl
  | cons c text ih =>
    rw [List.cons_append, List.takeWhile_cons, List.takeWhile_cons, ih]

theorem cString_textField (capacity : ℕ) (text : Bytes) :
    cString (textField capacity text) = cString text :=
  cString_append_zeros text _

theorem projectSession_eq_some {t : Tree} {s : SessionProjection} (h : projectSession t = some s) :
    s.present = true ∧ (∃ text, sessionIdText t = some text ∧
      s.sessionId = textField sessionIdCapacity text) ∧
      nullableText (field t (bytes "display_name")) displayTextCapacity =
        some (s.hasDisplayName, s.displayName) := by
  obtain ⟨text, htext, h⟩ := Option.bind_eq_some_iff.mp h
  obtain ⟨state, -, h⟩ := Option.bind_eq_some_iff.mp h
  obtain ⟨confidence, -, h⟩ := Option.bind_eq_some_iff.mp h
  obtain ⟨displayName, hname, h⟩ := Option.bind_eq_some_iff.mp h
  obtain ⟨lastActivity, -, h⟩ := Option.bind_eq_some_iff.mp h
  obtain ⟨duration, -, h⟩ := Option.bind_eq_some_iff.mp h
  obtain ⟨turnTokens, -, h⟩ := Option.bind_eq_some_iff.mp h
  obtain ⟨contextUsed, -, h⟩ := Option.bind_eq_some_iff.mp h
  obtain rfl := Option.some.inj h
  exact ⟨rfl, ⟨text, htext, rfl⟩, hname⟩

theorem cString_eq_of_rank_eq {s t : SessionProjection} (hs : s.present = true)
    (h : s.rank = t.rank) : cString s.sessionId = cString t.sessionId := by
  unfold SessionProjection.rank at h
  rw [if_pos hs] at h
  split_ifs at h with ht
  · rw [WithBot.coe_inj, toLex_inj, Prod.mk.injEq, toLex_inj, Prod.mk.injEq,
      OrderDual.toDual_inj] at h
    refine (List.map_injective_iff.mpr ?_) h.2.2
    intro a b hab
    exact UInt8.toNat_inj.mp hab
  · exact absurd h WithBot.coe_ne_bot

theorem nodup_rank {sessions : List Tree} {projected : List SessionProjection}
    (hdistinct : sessions.Pairwise Distinct)
    (h : sessions.mapM projectSession = some projected) :
    (projected.map SessionProjection.rank).Nodup := by
  induction mapM_eq_some.mp h with
  | nil => exact List.nodup_nil
  | @cons t s sessions projected ht hrest ih =>
    obtain ⟨hhead, hpairwise⟩ := List.pairwise_cons.mp hdistinct
    rw [List.map_cons, List.nodup_cons]
    refine ⟨fun hmem => ?_, ih hpairwise (mapM_eq_some.mpr hrest)⟩
    obtain ⟨other, hother, hrank⟩ := List.mem_map.mp hmem
    obtain ⟨t', ht', hprojected⟩ := exists_mem_of_forall₂ hrest hother
    obtain ⟨hpresent, ⟨text, htext, hid⟩, -⟩ := projectSession_eq_some ht
    obtain ⟨-, ⟨otherText, hotherText, hotherId⟩, -⟩ := projectSession_eq_some hprojected
    refine hhead t' ht' text otherText htext hotherText ?_
    have hsame := cString_eq_of_rank_eq hpresent hrank.symm
    rwa [hid, hotherId, cString_textField, cString_textField] at hsame

/-! ### The loop -/

theorem projectCodexSessions_eq {candidate : CodexProjection} {sessions : List Tree}
    (h : candidate.sessionCount + sessions.length ≤ 255) :
    projectCodexSessions candidate sessions =
      ((sessions.filter isCodex).mapM projectSession).map fun projected =>
        { candidate with
          sessionCount := candidate.sessionCount + projected.length
          featuredSession :=
            projected.foldl (keepBest SessionProjection.rank) candidate.featuredSession } := by
  induction sessions generalizing candidate with
  | nil => rfl
  | cons t sessions ih =>
    rw [List.length_cons] at h
    rw [projectCodexSessions, List.filter_cons]
    cases hcodex : isCodex t with
    | false =>
      rw [if_pos (by rfl), if_neg (by simp)]
      exact ih (by omega)
    | true =>
      rw [if_neg (by simp), if_neg (by omega), if_pos rfl, List.mapM_cons]
      cases hprojected : projectSession t with
      | none => rfl
      | some projected =>
        have hkeep : (if sessionIsBetter projected candidate.featuredSession then projected
            else candidate.featuredSession) =
              keepBest SessionProjection.rank candidate.featuredSession projected := by
          unfold keepBest
          have hbetter := sessionIsBetter_iff (projectSession_eq_some hprojected).1
            candidate.featuredSession
          split_ifs <;> simp_all
        simp only [Option.bind_eq_bind, Option.bind_some, hkeep]
        rw [ih (by dsimp only; omega)]
        cases (sessions.filter isCodex).mapM projectSession with
        | none => rfl
        | some rest =>
          simp only [Option.map_some, Option.bind_some, Option.pure_def, List.length_cons,
            List.foldl_cons]
          rw [Nat.add_assoc, Nat.add_comm 1]

/-! ### Permuted documents -/

/-- Two documents that differ in the order of their sessions only. -/
def SessionsPermuted (root₁ root₂ : Tree) : Prop :=
  ∃ before key sessions₁ sessions₂ after,
    root₁ = .object (before ++ (key, .array sessions₁) :: after) ∧
      root₂ = .object (before ++ (key, .array sessions₂) :: after) ∧
      stringEquals (.string key) (bytes "sessions") = true ∧ sessions₁.Perm sessions₂

theorem stringEquals_unique {t : Tree} {a b : Bytes} (ha : stringEquals t a = true)
    (hb : stringEquals t b = true) : a = b := by
  unfold stringEquals at ha hb
  cases hdecode : decodeAscii 96 t with
  | none => simp [hdecode] at ha
  | some text =>
    simp only [hdecode, beq_iff_eq] at ha hb
    rw [← ha, ← hb]

theorem field_of_sessionsPermuted {root₁ root₂ : Tree} (h : SessionsPermuted root₁ root₂)
    {name : Bytes} (hname : name ≠ bytes "sessions") : field root₁ name = field root₂ name := by
  obtain ⟨before, key, sessions₁, sessions₂, after, rfl, rfl, hkey, -⟩ := h
  have hno : stringEquals (.string key) name = false := by
    by_contra hyes
    rw [Bool.not_eq_false] at hyes
    exact hname (stringEquals_unique hyes hkey)
  unfold field
  simp [List.find?_append, hno]

theorem sessions_of_sessionsPermuted {root₁ root₂ : Tree} (h : SessionsPermuted root₁ root₂)
    {sessions₁ sessions₂ : List Tree}
    (h₁ : field root₁ (bytes "sessions") = some (.array sessions₁))
    (h₂ : field root₂ (bytes "sessions") = some (.array sessions₂)) :
    sessions₁.Perm sessions₂ := by
  obtain ⟨before, key, items₁, items₂, after, rfl, rfl, hkey, hperm⟩ := h
  unfold field at h₁ h₂
  cases hbefore : before.find? fun m => stringEquals (.string m.1) (bytes "sessions") with
  | none =>
    simp only [List.find?_append, hbefore, List.find?_cons, hkey, Option.none_or, Option.map_some,
      Option.some.injEq, Tree.array.injEq] at h₁ h₂
    rw [← h₁, ← h₂]
    exact hperm
  | some found =>
    simp only [List.find?_append, hbefore, Option.some_or] at h₁ h₂
    rw [h₁] at h₂
    have hsame : sessions₁ = sessions₂ := by simpa using h₂
    rw [hsame]

/-! ### The result -/

/-- The projections of the sessions of a document. -/
def ProjectedSession (root : Tree) (s : SessionProjection) : Prop :=
  ∃ sessions, field root (bytes "sessions") = some (.array sessions) ∧
    ∃ t ∈ sessions, projectSession t = some s

theorem eq_of_rank_eq {root : Tree} {generatedAt : ℕ} (h : AcceptedSnapshot root generatedAt)
    {s t : SessionProjection} (hs : ProjectedSession root s) (ht : ProjectedSession root t)
    (hrank : s.rank = t.rank) : s = t := by
  obtain ⟨sessions, hsessions, -, -, -, hpairwise⟩ := h.sessions
  obtain ⟨items, hitems, a, ha, hsa⟩ := hs
  obtain ⟨items', hitems', b, hb, htb⟩ := ht
  rw [hsessions] at hitems hitems'
  obtain rfl : sessions = items := by simpa using hitems
  obtain rfl : sessions = items' := by simpa using hitems'
  obtain ⟨hpresent, ⟨text, htext, hid⟩, -⟩ := projectSession_eq_some hsa
  obtain ⟨-, ⟨otherText, hotherText, hotherId⟩, -⟩ := projectSession_eq_some htb
  have hsame := cString_eq_of_rank_eq hpresent hrank
  rw [hid, hotherId, cString_textField, cString_textField] at hsame
  by_cases hab : a = b
  · subst hab
    rw [hsa] at htb
    exact Option.some.inj htb
  · have hdistinct : Distinct a b := hpairwise.forall ha hb hab
    exact absurd hsame (hdistinct text otherText htext hotherText)

theorem sessionCount_projectCodexProvider {candidate result : CodexProjection} {t : Tree}
    (h : projectCodexProvider candidate t = some result) :
    result.sessionCount = candidate.sessionCount := by
  obtain ⟨displayName, -, h⟩ := Option.bind_eq_some_iff.mp h
  obtain ⟨status, -, h⟩ := Option.bind_eq_some_iff.mp h
  obtain ⟨confidence, -, h⟩ := Option.bind_eq_some_iff.mp h
  obtain ⟨updatedAt, -, h⟩ := Option.bind_eq_some_iff.mp h
  obtain ⟨windows, -, h⟩ := Option.bind_eq_some_iff.mp h
  obtain ⟨total, -, h⟩ := Option.bind_eq_some_iff.mp h
  rw [← Option.some.inj h]

theorem codexSessions_perm {sessions₁ sessions₂ : List Tree} (hperm : sessions₁.Perm sessions₂)
    (hdistinct : sessions₁.Pairwise Distinct)
    (hcount : sessions₁.length ≤ 16) {candidate : CodexProjection}
    (hzero : candidate.sessionCount = 0) :
    projectCodexSessions candidate sessions₁ = projectCodexSessions candidate sessions₂ := by
  have hlength := hperm.length_eq
  rw [projectCodexSessions_eq (by omega), projectCodexSessions_eq (by omega)]
  have hcodex : (sessions₁.filter isCodex).Perm (sessions₂.filter isCodex) := hperm.filter _
  cases h₂ : (sessions₂.filter isCodex).mapM projectSession with
  | some projected₂ =>
    obtain ⟨projected₁, h₁, hprojected⟩ := mapM_perm hcodex h₂
    have hnodup := nodup_rank (hdistinct.filter _) h₁
    rw [h₁, Option.map_some, Option.map_some, hprojected.length_eq,
      foldl_keepBest_perm _ hprojected fun x hx y hy => List.inj_on_of_nodup_map hnodup hx hy]
  | none =>
    cases h₁ : (sessions₁.filter isCodex).mapM projectSession with
    | none => rfl
    | some projected₁ =>
      obtain ⟨projected₂, h₂', -⟩ := mapM_perm hcodex.symm h₁
      rw [h₂] at h₂'
      cases h₂'

/-- **The featured session is order independent**: two accepted documents that differ in the
order of their sessions only have the same projection, and `session_is_better` is a strict total
order on the sessions of an accepted document. -/
theorem featured_order_independent {document₁ document₂ : Bytes} {metadata₁ metadata₂ : Metadata}
    (h₁ : deckAiSnapshotValidate true document₁ = .ok metadata₁)
    (h₂ : deckAiSnapshotValidate true document₂ = .ok metadata₂) {root₁ root₂ : Tree}
    (hroot₁ : Parser.parse document₁ = some root₁) (hroot₂ : Parser.parse document₂ = some root₂)
    (hperm : SessionsPermuted root₁ root₂) :
    deckAiSnapshotProjectCodex true document₁ = deckAiSnapshotProjectCodex true document₂ ∧
      (∀ s, ProjectedSession root₁ s → sessionIsBetter s s = false) ∧
      (∀ s t u, ProjectedSession root₁ s → ProjectedSession root₁ t → ProjectedSession root₁ u →
        sessionIsBetter s t = true → sessionIsBetter t u = true → sessionIsBetter s u = true) ∧
      ∀ s t, ProjectedSession root₁ s → ProjectedSession root₁ t → s ≠ t →
        (sessionIsBetter s t = true ↔ sessionIsBetter t s = false) := by
  obtain ⟨root, generatedAt, hroot, -, haccepted⟩ := acceptedDocument h₁
  obtain rfl : root₁ = root := by simpa [hroot₁] using hroot
  obtain ⟨root', generatedAt', hroot', -, haccepted'⟩ := acceptedDocument h₂
  obtain rfl : root₂ = root' := by simpa [hroot₂] using hroot'
  have hpresent : ∀ s, ProjectedSession root₁ s → s.present = true := by
    rintro s ⟨sessions, -, t, -, ht⟩
    exact (projectSession_eq_some ht).1
  refine ⟨?_, fun s hs => ?_, fun s t u hs ht hu hst htu => ?_, fun s t hs ht hne => ?_⟩
  · obtain ⟨sessions₁, hsessions₁, hcount, -, -, hdistinct⟩ := haccepted.sessions
    obtain ⟨sessions₂, hsessions₂, -⟩ := haccepted'.sessions
    have hsessions := sessions_of_sessionsPermuted hperm hsessions₁ hsessions₂
    unfold deckAiSnapshotProjectCodex projectDocument
    rw [h₁, h₂, hroot₁, hroot₂]
    show projectCodex root₁ = projectCodex root₂
    unfold projectCodex
    rw [field_of_sessionsPermuted hperm (by decide : bytes "timezone" ≠ bytes "sessions"),
      field_of_sessionsPermuted hperm (by decide : bytes "providers" ≠ bytes "sessions"),
      hsessions₁, hsessions₂]
    cases nullableText (field root₂ (bytes "timezone")) timezoneCapacity with
    | none => rfl
    | some timezone =>
      simp only [Option.bind_eq_bind, Option.bind_some]
      split
      · rfl
      · next provider _ =>
        cases hcandidate : projectCodexProvider
            { hasTimezone := timezone.1, timezone := timezone.2 } provider with
        | none => rfl
        | some candidate =>
          exact codexSessions_perm hsessions hdistinct hcount
            (sessionCount_projectCodexProvider hcandidate)
  · rw [← Bool.not_eq_true, sessionIsBetter_iff (hpresent s hs)]
    exact lt_irrefl _
  · rw [sessionIsBetter_iff (hpresent s hs)] at hst ⊢
    rw [sessionIsBetter_iff (hpresent t ht)] at htu
    exact htu.trans hst
  · rw [← Bool.not_eq_true, sessionIsBetter_iff (hpresent s hs),
      sessionIsBetter_iff (hpresent t ht), not_lt]
    have hrank : s.rank ≠ t.rank := fun heq => hne (eq_of_rank_eq haccepted hs ht heq)
    exact ⟨le_of_lt, fun hle => lt_of_le_of_ne hle (Ne.symm hrank)⟩

/-- The version 1.0. -/
def sampleVersion : Bytes × Tree :=
  (bytes "schema_version",
    .object [(bytes "major", .number (bytes "1")), (bytes "minor", .number (bytes "0"))])

/-- A session of Codex. -/
def sampleSession (id state : Bytes) : Tree :=
  .object [sampleVersion, (bytes "session_id", .string id),
    (bytes "provider_id", .string (bytes "codex")), (bytes "display_name", .null),
    (bytes "state", .string state), (bytes "source", .string (bytes "codex_app_server_owned")),
    (bytes "confidence", .string (bytes "verified")), (bytes "started_at", .null),
    (bytes "last_activity_at", .null), (bytes "duration_seconds", .null),
    (bytes "turn_tokens", .null), (bytes "context_used_basis_points", .null)]

/-- A snapshot with Codex as its only provider. -/
def sampleRoot (timezone : Tree) (sessions : List Tree) : Tree :=
  .object ([(bytes "type", .string (bytes "snapshot.ai")),
    (bytes "protocol_version", .number (bytes "1")), sampleVersion,
    (bytes "generated_at", .string (bytes "2026-01-01T00:00:00Z")), (bytes "timezone", timezone),
    (bytes "provider_order", .array [.string (bytes "codex")]),
    (bytes "providers", .array [.object [sampleVersion,
      (bytes "provider_id", .string (bytes "codex")), (bytes "display_name", .string (bytes "Codex")),
      (bytes "status", .string (bytes "ok")), (bytes "source", .string (bytes "codex_app_server")),
      (bytes "confidence", .string (bytes "verified")), (bytes "experimental", .bool false),
      (bytes "updated_at", .null), (bytes "stale_after_seconds", .null), (bytes "balance", .null),
      (bytes "windows", .array []), (bytes "tokens", .null), (bytes "error", .null)]])] ++
    (bytes "sessions", .array sessions) :: [(bytes "next_refresh_seconds", .number (bytes "60"))])

/-- A running session. -/
def sampleRunning : Tree := sampleSession (bytes "session-a") (bytes "running")

/-- A session that failed. -/
def sampleFailed : Tree := sampleSession (bytes "session-b") (bytes "failed")

theorem sample_accepted :
    deckAiSnapshotValidate true (sampleRoot .null [sampleRunning, sampleFailed]).print =
        .ok ⟨0, 1767225600000, 1, 2, 60⟩ ∧
      Parser.parse (sampleRoot .null [sampleRunning, sampleFailed]).print =
        some (sampleRoot .null [sampleRunning, sampleFailed]) ∧
      deckAiSnapshotValidate true (sampleRoot .null [sampleFailed, sampleRunning]).print =
        .ok ⟨0, 1767225600000, 1, 2, 60⟩ ∧
      Parser.parse (sampleRoot .null [sampleFailed, sampleRunning]).print =
        some (sampleRoot .null [sampleFailed, sampleRunning]) := by
  decide +kernel

/-- Two sessions in either order. -/
theorem featured_order_independent_two :
    deckAiSnapshotProjectCodex true (sampleRoot .null [sampleRunning, sampleFailed]).print =
      deckAiSnapshotProjectCodex true (sampleRoot .null [sampleFailed, sampleRunning]).print := by
  obtain ⟨hbefore, hroot₁, hafter, hroot₂⟩ := sample_accepted
  refine (featured_order_independent hbefore hafter hroot₁ hroot₂ ?_).1
  exact ⟨_, _, _, _, _, rfl, rfl, by decide +kernel, List.Perm.swap _ _ _⟩

end RlcdDeck.AiSnapshot

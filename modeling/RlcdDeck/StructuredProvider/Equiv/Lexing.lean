import RlcdDeck.Shell.Words
import RlcdDeck.StructuredProvider.CurlImport

/-!
# The words of a pasted command

What `lexCurl` makes of a source, beside the words a POSIX shell makes of it (`Shell.words`).  Both
are in the same mode after every character, so each character does to the two the same or one of
two things that differ: a backslash that stays in double quotes, a space that is no blank.  At each
of them the shell's words gain one character (`Follows.step`), and so the two agree when there is no
such place and no empty word (`lexCurl_words`).
-/

namespace RlcdDeck.StructuredProvider

open Shell (Mode Reader Word isBlank isEscapable isPattern readings words)

/-! ### Where the two differ -/

/-- How the lexer reads the next character. -/
def Lexer.mode (lexer : Lexer) : Mode :=
  match lexer.quote, lexer.escaped with
  | .none, false => .unquoted
  | .none, true => .escaped
  | .single, _ => .single
  | .double, false => .double
  | .double, true => .doubleEscaped

/-- A backslash inside double quotes that is not special there. -/
def keptBackslash (reading : Mode × Char) : Bool :=
  reading.1 == .doubleEscaped && !isEscapable reading.2

/-- An unquoted space that no shell splits at. -/
def oddSpace (reading : Mode × Char) : Bool :=
  reading.1 == .unquoted && Utf8.isSpace reading.2.toNat && !isBlank reading.2

def differs (reading : Mode × Char) : Bool := keptBackslash reading || oddSpace reading

/-! ### What one character does -/

/-- The tokens and the current token of the lexer beside the words and the word of the shell, after
`n` characters that the two took differently. -/
structure Beside (tokens : List Word) (current : Word) (words : List Word) (word : Option Word)
    (n : ℕ) : Prop where
  size : words.flatten.length + (word.getD []).length =
    tokens.flatten.length + current.length + n
  tokens : n = 0 → tokens = words.filter fun word => !word.isEmpty
  current : n = 0 → current = word.getD []

namespace Beside

section

variable {tokens : List Word} {current : Word} {words : List Word} {word : Option Word} {n : ℕ}

theorem write (h : Beside tokens current words word n) (c : Char) :
    Beside tokens (current ++ [c]) words (some (word.getD [] ++ [c])) n where
  size := by
    have hsize := h.size
    simp only [Option.getD_some, List.length_append, List.length_singleton]
    omega
  tokens := h.tokens
  current := fun hn => by rw [h.current hn, Option.getD_some]

theorem begin (h : Beside tokens current words word n) :
    Beside tokens current words (some (word.getD [])) n where
  size := h.size
  tokens := h.tokens
  current := h.current

theorem keep (h : Beside tokens current words word n) (c : Char) :
    Beside tokens (current ++ [c]) words (some (word.getD [] ++ ['\\', c])) (n + 1) where
  size := by
    have hsize := h.size
    simp only [Option.getD_some, List.length_append, List.length_cons, List.length_nil]
    omega
  tokens := fun hn => absurd hn (Nat.succ_ne_zero n)
  current := fun hn => absurd hn (Nat.succ_ne_zero n)

end

theorem flush_size (lexer : Lexer) :
    lexer.flush.tokens.flatten.length + lexer.flush.current.length =
      lexer.tokens.flatten.length + lexer.current.length := by
  unfold Lexer.flush
  split_ifs with h
  · rfl
  · simp

theorem flush_current (lexer : Lexer) : lexer.flush.current = [] := by
  unfold Lexer.flush
  split_ifs with hempty
  · exact List.isEmpty_iff.mp hempty
  · rfl

section

variable {lexer : Lexer} {words : List Word} {word : Option Word} {n : ℕ}

theorem odd (h : Beside lexer.tokens lexer.current words word n) (c : Char) :
    Beside lexer.flush.tokens lexer.flush.current words (some (word.getD [] ++ [c])) (n + 1) where
  size := by
    have hsize := h.size
    have hflush := flush_size lexer
    simp only [Option.getD_some, List.length_append, List.length_singleton]
    omega
  tokens := fun hn => absurd hn (Nat.succ_ne_zero n)
  current := fun hn => absurd hn (Nat.succ_ne_zero n)

theorem cut (h : Beside lexer.tokens lexer.current words word n) :
    Beside lexer.flush.tokens lexer.flush.current (words ++ word.toList) none n where
  size := by
    have hsize := h.size
    have hflush := flush_size lexer
    cases word with
    | none =>
      simp only [Option.getD_none, Option.toList_none, List.append_nil] at hsize ⊢
      omega
    | some w =>
      simp only [Option.getD_some, Option.getD_none, Option.toList_some, List.flatten_append,
        List.flatten_singleton, List.length_append, List.length_nil] at hsize ⊢
      omega
  tokens := fun hn => by
    have htokens := h.tokens hn
    have hcurrent := h.current hn
    rw [List.filter_append, ← htokens]
    unfold Lexer.flush
    cases word with
    | none =>
      rw [Option.getD_none] at hcurrent
      simp [hcurrent]
    | some w =>
      rw [Option.getD_some] at hcurrent
      by_cases hw : w = [] <;> simp [hcurrent, hw]
  current := fun _ => flush_current lexer

end

end Beside

/-! ### The two runs -/

/-- The lexer and the shell after the same characters, `n` of which they took differently. -/
structure Follows (lexer : Lexer) (reader : Reader) (n : ℕ) : Prop where
  mode : reader.mode = lexer.mode
  single : lexer.quote = .single → lexer.escaped = false
  beside : Beside lexer.tokens lexer.current reader.words reader.word n

theorem refused_of_isExpansion {c : Char} (h : Shell.isExpansion c = true) :
    Lexer.refused c = true := by
  simp only [Shell.isExpansion, Lexer.refused, List.contains_iff_mem] at h ⊢
  simp at h ⊢
  tauto

theorem shellOperator_of_isOperator {c : Char} (h : Shell.isOperator c = true) :
    Lexer.shellOperator c = true := by
  simp only [Shell.isOperator, Lexer.shellOperator, List.contains_iff_mem] at h ⊢
  simp at h ⊢
  tauto

variable {reader : Reader}

theorem reader_step {c : Char} {change : Shell.Change}
    (hchange : reader.mode.change c = some change)
    (hcomment : ¬ (reader.mode = .unquoted ∧ reader.word = none ∧ c = '#')) :
    reader.step c = some { reader.apply change with mode := reader.mode.next c } := by
  unfold Reader.step
  rw [if_neg hcomment, hchange]
  rfl

theorem isSpace_of_isBlank {c : Char} (h : isBlank c = true) : Utf8.isSpace c.toNat = true := by
  rcases Bool.or_eq_true _ _ |>.mp h with hc | hc
  · obtain rfl := eq_of_beq hc
    rfl
  · obtain rfl := eq_of_beq hc
    rfl

theorem flush_mode (lexer : Lexer) : lexer.flush.mode = lexer.mode := by
  unfold Lexer.flush
  split_ifs
  · rfl
  · rfl

theorem flush_quote (lexer : Lexer) : lexer.flush.quote = lexer.quote := by
  unfold Lexer.flush
  split_ifs
  · rfl
  · rfl

variable {source : List Char}

namespace Follows

section

variable {tokens : List Word} {current : Word} {words : List Word} {word : Option Word} {n : ℕ}
variable {c : Char} {next : Lexer}

theorem step_escaped (h : Beside tokens current words word n)
    (hstep : Lexer.step ⟨tokens, current, .none, true⟩ c = some next) :
    ∃ reader, Reader.step ⟨words, word, .escaped⟩ c = some reader ∧ Follows next reader n := by
  simp only [Lexer.step, if_true, Option.some.injEq] at hstep
  refine ⟨_, reader_step rfl (by simp), ?_⟩
  subst hstep
  by_cases hc : c = '\n'
  · rw [if_pos hc, if_pos hc]
    exact ⟨rfl, nofun, h⟩
  · rw [if_neg hc, if_neg hc]
    exact ⟨rfl, nofun, h.write c⟩

theorem step_doubleEscaped (h : Beside tokens current words word n)
    (hstep : Lexer.step ⟨tokens, current, .double, true⟩ c = some next) :
    ∃ reader, Reader.step ⟨words, word, .doubleEscaped⟩ c = some reader ∧
      Follows next reader (n + (!isEscapable c).toNat) := by
  simp only [Lexer.step, if_true, Option.some.injEq] at hstep
  refine ⟨_, reader_step rfl (by simp), ?_⟩
  subst hstep
  by_cases hc : c = '\n'
  · rw [if_pos hc, if_pos hc]
    subst hc
    exact ⟨rfl, nofun, h⟩
  · rw [if_neg hc, if_neg hc]
    by_cases hspecial : isEscapable c = true
    · rw [if_pos hspecial, hspecial]
      exact ⟨rfl, nofun, h.write c⟩
    · rw [if_neg hspecial, Bool.not_eq_true _ |>.mp hspecial]
      exact ⟨rfl, nofun, h.keep c⟩

theorem step_single (h : Beside tokens current words word n)
    (hstep : Lexer.step ⟨tokens, current, .single, false⟩ c = some next) :
    ∃ reader, Reader.step ⟨words, word, .single⟩ c = some reader ∧ Follows next reader n := by
  simp only [Lexer.step, Bool.false_eq_true, if_false] at hstep
  split_ifs at hstep with hrefused hc
  · obtain rfl := Option.some.inj hstep
    subst hc
    exact ⟨_, reader_step rfl (by simp), rfl, nofun, h⟩
  · obtain rfl := Option.some.inj hstep
    have hchange : Mode.change .single c = some (.add [c]) := by
      simp only [Mode.change, if_neg hc]
    refine ⟨_, reader_step hchange (by simp), ?_, fun _ => rfl, h.write c⟩
    simp only [Mode.next, if_neg hc]
    rfl

theorem step_double (h : Beside tokens current words word n)
    (hstep : Lexer.step ⟨tokens, current, .double, false⟩ c = some next) :
    ∃ reader, Reader.step ⟨words, word, .double⟩ c = some reader ∧ Follows next reader n := by
  simp only [Lexer.step, Bool.false_eq_true, if_false] at hstep
  split_ifs at hstep with hrefused hquote hbackslash
  · obtain rfl := Option.some.inj hstep
    subst hquote
    exact ⟨_, reader_step rfl (by simp), rfl, nofun, h⟩
  · obtain rfl := Option.some.inj hstep
    subst hbackslash
    exact ⟨_, reader_step rfl (by simp), rfl, nofun, h⟩
  · obtain rfl := Option.some.inj hstep
    have hexpansion : ¬ Shell.isExpansion c = true := fun he =>
      hrefused (refused_of_isExpansion he)
    have hchange : Mode.change .double c = some (.add [c]) := by
      simp only [Mode.change, hquote, hbackslash, or_self, if_false, if_neg hexpansion]
    refine ⟨_, reader_step hchange (by simp), ?_, nofun, h.write c⟩
    simp only [Mode.next, hquote, hbackslash, if_false]
    rfl

/-- Outside quotes the shell splits at the blanks only. -/
theorem step_unquoted (h : Beside tokens current words word n)
    (hstep : Lexer.step ⟨tokens, current, .none, false⟩ c = some next)
    (hpattern : isPattern c = false) :
    ∃ reader, Reader.step ⟨words, word, .unquoted⟩ c = some reader ∧
      Follows next reader (n + (Utf8.isSpace c.toNat && !isBlank c).toNat) := by
  simp only [Lexer.step, Bool.false_eq_true, if_false] at hstep
  split_ifs at hstep with hrefused hsingle hdouble hbackslash hoperator hspace
  · obtain rfl := Option.some.inj hstep
    subst hsingle
    exact ⟨_, reader_step rfl (by simp), rfl, fun _ => rfl, h.begin⟩
  · obtain rfl := Option.some.inj hstep
    subst hdouble
    exact ⟨_, reader_step rfl (by simp), rfl, nofun, h.begin⟩
  · obtain rfl := Option.some.inj hstep
    subst hbackslash
    exact ⟨_, reader_step rfl (by simp), rfl, nofun, h⟩
  all_goals
    obtain rfl := Option.some.inj hstep
    have hexpansion : ¬ Shell.isExpansion c = true := fun he =>
      hrefused (refused_of_isExpansion he)
    have hend : ¬ Shell.isOperator c = true := fun ho => hoperator (shellOperator_of_isOperator ho)
    have hhash : c ≠ '#' := by
      rintro rfl
      exact hoperator rfl
    have hnext : Mode.next .unquoted c = .unquoted := by
      simp only [Mode.next, hsingle, hdouble, hbackslash, if_false]
    have hadd : isBlank c = false → Mode.change .unquoted c = some (.add [c]) := fun hblank => by
      simp [Mode.change, hblank, hsingle, hdouble, hbackslash, hpattern, hend, hexpansion]
  · by_cases hblank : isBlank c = true
    · have hchange : Mode.change .unquoted c = some .cut := by
        simp only [Mode.change, hblank, if_true]
      refine ⟨_, reader_step hchange (fun hc => hhash hc.2.2), ?_⟩
      rw [hblank, Bool.not_true, Bool.and_false]
      exact ⟨hnext.trans (flush_mode ⟨tokens, current, .none, false⟩).symm,
        fun hs => (nomatch (flush_quote ⟨tokens, current, .none, false⟩).symm.trans hs),
        Beside.cut h⟩
    · rw [Bool.not_eq_true] at hblank
      refine ⟨_, reader_step (hadd hblank) (fun hc => hhash hc.2.2), ?_⟩
      rw [hblank, hspace]
      exact ⟨hnext.trans (flush_mode ⟨tokens, current, .none, false⟩).symm,
        fun hs => (nomatch (flush_quote ⟨tokens, current, .none, false⟩).symm.trans hs),
        Beside.odd h c⟩
  · have hblank : isBlank c = false := by
      by_contra hblank
      exact hspace (isSpace_of_isBlank (Bool.not_eq_false _ |>.mp hblank))
    refine ⟨_, reader_step (hadd hblank) (fun hc => hhash hc.2.2), ?_⟩
    rw [Bool.not_eq_true] at hspace
    rw [hspace]
    exact ⟨hnext, nofun, h.write c⟩

end

/-- **One character** leaves the two in the same mode, and counts if they take it differently. -/
theorem step {lexer next : Lexer} {n : ℕ} {c : Char} (h : Follows lexer reader n)
    (hstep : lexer.step c = some next)
    (hpattern : reader.mode = .unquoted → isPattern c = false) :
    ∃ reader', reader.step c = some reader' ∧
      Follows next reader' (n + (differs (reader.mode, c)).toNat) := by
  obtain ⟨tokens, current, quote, escaped⟩ := lexer
  obtain ⟨words, word, mode⟩ := reader
  obtain ⟨hmode, hsingle, hbeside⟩ := h
  dsimp only at hmode hsingle hbeside hpattern ⊢
  cases quote with
  | none =>
    cases escaped with
    | false =>
      obtain rfl : mode = .unquoted := hmode
      exact step_unquoted hbeside hstep (hpattern rfl)
    | true =>
      obtain rfl : mode = .escaped := hmode
      exact step_escaped hbeside hstep
  | single =>
    obtain rfl : escaped = false := hsingle rfl
    obtain rfl : mode = .single := hmode
    exact step_single hbeside hstep
  | double =>
    cases escaped with
    | false =>
      obtain rfl : mode = .double := hmode
      exact step_double hbeside hstep
    | true =>
      obtain rfl : mode = .doubleEscaped := hmode
      have hdiffers : differs (.doubleEscaped, c) = !isEscapable c := by
        simp [differs, keptBackslash, oddSpace]
      rw [hdiffers]
      exact step_doubleEscaped hbeside hstep

/-- **The whole source.** -/
theorem run {lexer last : Lexer} {n : ℕ} (h : Follows lexer reader n)
    (hrun : source.foldlM Lexer.step lexer = some last)
    (hpattern : ∀ reading ∈ readings reader.mode source,
      reading.1 = .unquoted → isPattern reading.2 = false) :
    ∃ reader', source.foldlM Reader.step reader = some reader' ∧
      Follows last reader' (n + (readings reader.mode source).countP differs) := by
  induction source generalizing lexer reader n with
  | nil =>
    obtain rfl := Option.some.inj hrun
    exact ⟨reader, rfl, h⟩
  | cons c source ih =>
    rw [List.foldlM_cons] at hrun
    obtain ⟨next, hstep, hrest⟩ := Option.bind_eq_some_iff.mp hrun
    obtain ⟨reader', hstep', hfollows⟩ := h.step hstep (hpattern _ List.mem_cons_self)
    have hmode : reader'.mode = reader.mode.next c := Reader.step_mode hstep'
    obtain ⟨last', hlast, hfollows'⟩ := ih hfollows hrest (by
      rw [hmode]
      exact fun reading hr => hpattern reading (List.mem_cons_of_mem _ hr))
    refine ⟨last', by rw [List.foldlM_cons, hstep']; exact hlast, ?_⟩
    rw [hmode] at hfollows'
    rw [readings, List.countP_cons]
    convert hfollows' using 1
    cases differs (reader.mode, c) with
    | false => simp
    | true =>
      simp only [if_true, Bool.toNat_true]
      omega

end Follows

/-! ### The words -/

theorem Lexer.finish_eq_some {lexer : Lexer} {tokens : List Word}
    (h : lexer.finish = some tokens) : lexer.mode = .unquoted ∧ tokens = lexer.flush.tokens := by
  unfold Lexer.finish at h
  split_ifs at h with hopen
  obtain ⟨hescaped, hquote⟩ : lexer.escaped = false ∧ lexer.quote = .none := by
    simpa using hopen
  constructor
  · unfold Lexer.mode
    rw [hescaped, hquote]
  · exact (Option.some.inj h).symm

/-- The source reads the same to the lexer and to the shell. -/
structure ReadAlike (source : List Char) : Prop where
  /-- Inside double quotes a backslash stands before `$`, a backquote, `"`, `\` or a newline. -/
  escapes : ∀ c, (Mode.doubleEscaped, c) ∈ readings .unquoted source → isEscapable c = true
  /-- The unquoted spaces are blanks. -/
  spaces : ∀ c, (Mode.unquoted, c) ∈ readings .unquoted source → Utf8.isSpace c.toNat = true →
    isBlank c = true
  /-- No word is quotes around nothing. -/
  quotes : ∀ ws, words source = some ws → [] ∉ ws

theorem countP_differs_eq_zero :
    (readings .unquoted source).countP differs = 0 ↔
      (∀ c, (Mode.doubleEscaped, c) ∈ readings .unquoted source → isEscapable c = true) ∧
        ∀ c, (Mode.unquoted, c) ∈ readings .unquoted source → Utf8.isSpace c.toNat = true →
          isBlank c = true := by
  rw [List.countP_eq_zero]
  constructor
  · intro h
    constructor
    · intro c hc
      simpa [differs, keptBackslash, oddSpace] using h _ hc
    · intro c hc hspace
      simpa [differs, keptBackslash, oddSpace, hspace] using h _ hc
  · rintro ⟨hescapes, hspaces⟩ ⟨mode, c⟩ hc
    cases mode with
    | unquoted => simpa [differs, keptBackslash, oddSpace] using hspaces c hc
    | doubleEscaped => simpa [differs, keptBackslash, oddSpace] using hescapes c hc
    | escaped | single | double => simp [differs, keptBackslash, oddSpace]

theorem words_of_lexCurl {tokens : List Word} (accepted : lexCurl source = some tokens)
    (unexpanded : ∀ reading ∈ readings .unquoted source,
      reading.1 = .unquoted → isPattern reading.2 = false) :
    ∃ ws, words source = some ws ∧
      ws.flatten.length = tokens.flatten.length + (readings .unquoted source).countP differs ∧
      ((readings .unquoted source).countP differs = 0 →
        tokens = ws.filter fun word => !word.isEmpty) := by
  obtain ⟨last, hrun, hfinish⟩ := Option.bind_eq_some_iff.mp accepted
  have hstart : Follows {} {} 0 :=
    ⟨rfl, fun _ => rfl, ⟨rfl, fun _ => rfl, fun _ => rfl⟩⟩
  obtain ⟨reader, hwords, hfollows⟩ := hstart.run hrun unexpanded
  rw [Nat.zero_add] at hfollows
  obtain ⟨hmode, rfl⟩ := Lexer.finish_eq_some hfinish
  have hcut := hfollows.beside.cut
  have hread : reader.finish = some (reader.words ++ reader.word.toList) :=
    Reader.finish_eq_some.mpr ⟨hfollows.mode.trans hmode, rfl⟩
  refine ⟨reader.words ++ reader.word.toList, ?_, ?_, hcut.tokens⟩
  · unfold words
    rw [hwords]
    exact hread
  · have hsize := hcut.size
    rw [Beside.flush_current] at hsize
    exact hsize

/-- **The words.**  For a source that `lexCurl` accepts and that asks the shell for no expansion of
its words, the tokens are the shell's words exactly if inside double quotes every backslash is
special, the unquoted spaces are blanks and no word is empty. -/
theorem lexCurl_words (source : List Char) (tokens : List Word)
    (accepted : lexCurl source = some tokens)
    (unexpanded : ∀ reading ∈ readings .unquoted source,
      reading.1 = .unquoted → isPattern reading.2 = false) :
    words source = some tokens ↔ ReadAlike source := by
  obtain ⟨ws, hwords, hsize, htokens⟩ := words_of_lexCurl accepted unexpanded
  constructor
  · intro h
    obtain rfl : ws = tokens := Option.some.inj (hwords.symm.trans h)
    have hzero : (readings .unquoted source).countP differs = 0 := by omega
    obtain ⟨hescapes, hspaces⟩ := countP_differs_eq_zero.mp hzero
    refine ⟨hescapes, hspaces, fun ws' hws' => ?_⟩
    obtain rfl := Option.some.inj (hwords.symm.trans hws')
    intro hempty
    rw [htokens hzero] at hempty
    simpa using List.mem_filter.mp hempty
  · intro h
    have hzero := countP_differs_eq_zero.mpr ⟨h.escapes, h.spaces⟩
    rw [hwords, htokens hzero, List.filter_eq_self.mpr]
    intro word hword
    have hne : word ≠ [] := fun hnil => h.quotes ws hwords (hnil ▸ hword)
    simpa using hne

theorem lexCurl_words_quoted : ReadAlike "curl 'a b'\"\\$\"".toList :=
  (lexCurl_words _ ["curl".toList, "a b$".toList] (by decide) (by decide)).mp (by decide)

/-- A pasted `"a\d"` loses its backslash. -/
theorem lexCurl_words_fails :
    ¬ ∀ (source : List Char) (tokens : List Word), lexCurl source = some tokens →
      (∀ reading ∈ readings .unquoted source,
        reading.1 = .unquoted → isPattern reading.2 = false) →
      words source = some tokens := by
  intro h
  have hwords := h "curl -H \"K: a\\d\" http://h".toList
    ["curl".toList, "-H".toList, "K: ad".toList, "http://h".toList] (by decide) (by decide)
  revert hwords
  decide

end RlcdDeck.StructuredProvider

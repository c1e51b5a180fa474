import InventoryTokens.Toml.Writer
import Mathlib.Tactic.SplitIfs

/-!
# Quoted strings read back

A writer picks one of four forms for a string.  Each form is read by a scan of its own, and the scan
of what the writer puts there gives the string again, whatever follows but a further quote.  The
forms over several lines are the delicate ones: a closing run of quotes may belong to the string in
part, so what is shown of them is shown of every suffix at once.
-/

namespace InventoryTokens.Toml

/-- An escape sequence and the character it stands for. -/
inductive Escapes : List Char → Char → Prop where
  | letter {d c : Char} (h : unescape? d = some c) : Escapes ['\\', d] c
  | code {w x y z c : Char} (h : codePoint? [w, x, y, z] = some c) :
    Escapes ['\\', 'u', w, x, y, z] c

theorem codePoint?_control {c : Char} (h : c.toNat < 0x20 ∨ c.toNat = 0x7F) :
    codePoint? ['0', '0', upperHexDigit (c.toNat / 16), upperHexDigit c.toNat] = some c := by
  have hall : ∀ n < 0x80,
      codePoint? ['0', '0', upperHexDigit (n / 16), upperHexDigit n] = some (Char.ofNat n) := by
    decide
  rw [hall c.toNat (by omega), Char.ofNat_toNat]

theorem escapes_of_escape? {c : Char} {cs : List Char} (h : escape? c = some cs) :
    Escapes cs c := by
  unfold escape? at h
  split_ifs at h with hslash hback htab hfeed hreturn hcontrol <;> cases h
  · exact .letter (by rw [hslash]; rfl)
  · exact .letter (by rw [hback]; rfl)
  · exact .letter (by rw [htab]; rfl)
  · exact .letter (by rw [hfeed]; rfl)
  · exact .letter (by rw [hreturn]; rfl)
  · exact .code (codePoint?_control hcontrol)

theorem plain_of_escape? {c : Char} (h : escape? c = none) : isPrintable c = true ∧ c ≠ '\\' := by
  unfold escape? at h
  split_ifs at h with hslash hback htab hfeed hreturn hcontrol
  refine ⟨?_, hslash⟩
  simp only [isPrintable, Bool.or_eq_true, Bool.and_eq_true, decide_eq_true_eq]
  omega

theorem scanBasic_plain {c : Char} (hprint : isPrintable c = true) (hquote : c ≠ '"')
    (hslash : c ≠ '\\') (rest : List Char) :
    scanBasic (c :: rest) = emit (some c) (scanBasic rest) := by
  rw [scanBasic, if_pos ⟨hprint, hslash⟩]
  all_goals
    intros
    contradiction

theorem scanBasic_escapes {cs : List Char} {c : Char} (h : Escapes cs c) (rest : List Char) :
    scanBasic (cs ++ rest) = emit (some c) (scanBasic rest) := by
  cases h with
  | letter h =>
    rename_i d
    have hne : d ≠ 'u' ∧ d ≠ 'U' := by
      constructor <;>
      · rintro rfl
        simp [unescape?] at h
    rw [List.cons_append, List.cons_append, List.nil_append, scanBasic, h]
    · intros
      exact absurd ‹_› hne.1
    · intros
      exact absurd ‹_› hne.2
  | code h =>
    rw [← h]
    rfl

/-- What stands for a character in a basic string is read as that character. -/
theorem scanBasic_basicChar (c : Char) (rest : List Char) :
    scanBasic (basicChar c ++ rest) = emit (some c) (scanBasic rest) := by
  unfold basicChar
  split
  · rename_i hquote
    rw [hquote]
    exact scanBasic_escapes (.letter rfl) rest
  · rename_i hquote
    split
    · rename_i hnewline
      rw [hnewline]
      exact scanBasic_escapes (.letter rfl) rest
    · cases h : escape? c with
      | none =>
        obtain ⟨hprint, hslash⟩ := plain_of_escape? h
        exact scanBasic_plain hprint hquote hslash rest
      | some cs => exact scanBasic_escapes (escapes_of_escape? h) rest

theorem scanBasic_flatMap (cs rest : List Char) :
    scanBasic (cs.flatMap basicChar ++ '"' :: rest) = some (cs, rest) := by
  induction cs with
  | nil => rfl
  | cons c cs ih =>
    rw [List.flatMap_cons, List.append_assoc, scanBasic_basicChar, ih]
    rfl

theorem scanLiteral_append {cs : List Char} (h : ∀ c ∈ cs, isPrintable c = true ∧ c ≠ '\'')
    (rest : List Char) : scanLiteral (cs ++ '\'' :: rest) = some (cs, rest) := by
  induction cs with
  | nil => rfl
  | cons c cs ih =>
    obtain ⟨hprint, hquote⟩ := h c (by simp)
    rw [List.cons_append, scanLiteral, if_pos hprint, ih fun d hd => h d (by simp [hd])]
    · rfl
    · exact hquote

theorem scanLongBasic_plain {c : Char} (hprint : c = '\n' ∨ isPrintable c = true)
    (hquote : c ≠ '"') (hslash : c ≠ '\\') (rest : List Char) :
    scanLongBasic false (c :: rest) = emit (some c) (scanLongBasic false rest) := by
  have hreturn : c ≠ '\r' := by
    rintro rfl
    simp [isPrintable] at hprint
  have hstep : ¬(false = true ∧ (c = ' ' ∨ c = '\t' ∨ c = '\n')) := by simp
  rw [scanLongBasic, if_neg hstep, if_pos (hprint.imp_right fun h => ⟨h, hslash⟩)]
  all_goals
    intros
    contradiction

theorem scanLongBasic_quote {rest : List Char} (h : ∀ tail, rest ≠ '"' :: '"' :: tail) :
    scanLongBasic false ('"' :: rest) = emit (some '"') (scanLongBasic false rest) := by
  rw [scanLongBasic]
  · rfl
  · intro tail _
    exact h tail
  all_goals
    intros
    simp_all

theorem scanLongBasic_escapes {cs : List Char} {c : Char} (h : Escapes cs c)
    (rest : List Char) :
    scanLongBasic false (cs ++ rest) = emit (some c) (scanLongBasic false rest) := by
  cases h with
  | letter h =>
    rename_i d
    have hne : d ≠ 'u' ∧ d ≠ 'U' ∧ d ≠ ' ' ∧ d ≠ '\t' ∧ d ≠ '\n' ∧ d ≠ '\r' := by
      refine ⟨?_, ?_, ?_, ?_, ?_, ?_⟩ <;>
      · rintro rfl
        simp [unescape?] at h
    obtain ⟨hu, hU, hspace, htab, hnewline, hreturn⟩ := hne
    have hline : endsLine (d :: rest) = false := by
      have hgap : (decide (d = ' ') || decide (d = '\t')) = false := by simp [hspace, htab]
      rw [endsLine, List.dropWhile_cons_of_neg (by simp [hgap]), afterNewline?]
      · rfl
      · rintro tail ⟨⟩
        exact hnewline rfl
      · rintro tail ⟨⟩
        exact hreturn rfl
    rw [List.cons_append, List.cons_append, List.nil_append, scanLongBasic, hline, h]
    · rfl
    · intros
      exact absurd ‹_› hu
    · intros
      exact absurd ‹_› hU
  | code h =>
    rw [← h]
    rfl

theorem scanTail_of_head {quote : Char} {rest : List Char} (h : rest.head? ≠ some quote) :
    scanTail quote rest = ([], rest) := by
  match rest with
  | [] => rfl
  | [a] =>
    have ha : a ≠ quote := fun he => h (by rw [he]; rfl)
    rw [scanTail, if_neg ha]
  | a :: b :: rest =>
    have ha : a ≠ quote := fun he => h (by rw [he]; rfl)
    rw [scanTail, if_neg ha]

theorem scanTail_one {quote : Char} {rest : List Char} (h : rest.head? ≠ some quote) :
    scanTail quote (quote :: rest) = ([quote], rest) := by
  match rest with
  | [] => simp [scanTail]
  | b :: rest =>
    have hb : b ≠ quote := fun he => h (by rw [he]; rfl)
    rw [scanTail, if_pos rfl, if_neg hb]

theorem scanTail_two (quote : Char) (rest : List Char) :
    scanTail quote (quote :: quote :: rest) = ([quote, quote], rest) := by
  rw [scanTail, if_pos rfl, if_pos rfl]

/-- What is written for a character does not start with a quote, unless it is one that needs no
escape. -/
theorem head?_longBasicBody {quotes : Nat} {c : Char} (h : c = '"' → quotes = 2)
    (cs rest : List Char) : (longBasicBody quotes (c :: cs) ++ rest).head? ≠ some '"' := by
  rw [longBasicBody]
  split
  · rename_i hquote
    rw [if_pos (h hquote)]
    simp
  · rename_i hquote
    split
    · simp
    · cases hescape : escape? c with
      | none => simpa using hquote
      | some es =>
        cases escapes_of_escape? hescape <;> simp

theorem scanLongBasic_other {quotes : Nat} {c : Char} (hquote : c ≠ '"') (cs rest : List Char) :
    scanLongBasic false (longBasicBody quotes (c :: cs) ++ rest) =
      emit (some c) (scanLongBasic false (longBasicBody 0 cs ++ rest)) := by
  rw [longBasicBody, if_neg hquote]
  split
  · rename_i hnewline
    rw [hnewline]
    exact scanLongBasic_plain (Or.inl rfl) (by decide) (by decide) _
  · rw [List.append_assoc]
    cases hescape : escape? c with
    | none =>
      obtain ⟨hprint, hslash⟩ := plain_of_escape? hescape
      exact scanLongBasic_plain (Or.inr hprint) hquote hslash _
    | some es => exact scanLongBasic_escapes (escapes_of_escape? hescape) _

theorem longBasicBody_quote {quotes : Nat} (h : quotes ≠ 2) (cs : List Char) :
    longBasicBody quotes ('"' :: cs) = '"' :: longBasicBody (quotes + 1) cs := by
  rw [longBasicBody, if_pos rfl, if_neg h]

/-- After a quote of its own, the body starts with two more quotes only if it is a single quote at
the end of the string. -/
theorem longBasicBody_ne_two_quotes {quotes : Nat} (hpos : 0 < quotes) (hle : quotes ≤ 2)
    {cs : List Char} (hcs : cs ≠ []) (hlast : quotes = 1 → cs ≠ ['"']) (rest tail : List Char) :
    longBasicBody quotes cs ++ rest ≠ '"' :: '"' :: tail := by
  intro h
  obtain ⟨c, cs, rfl⟩ := List.exists_cons_of_ne_nil hcs
  by_cases hraw : c = '"' ∧ quotes = 1
  · obtain ⟨rfl, rfl⟩ := hraw
    have hmore : cs ≠ [] := fun hnil => hlast rfl (by rw [hnil])
    obtain ⟨d, cs, rfl⟩ := List.exists_cons_of_ne_nil hmore
    have hhead := @head?_longBasicBody 2 d (fun _ => rfl) cs rest
    rw [longBasicBody_quote (by decide), List.cons_append] at h
    rw [(List.cons.inj h).2] at hhead
    exact hhead rfl
  · have hescaped : c = '"' → quotes = 2 := by
      intro hc
      have hne : quotes ≠ 1 := fun hone => hraw ⟨hc, hone⟩
      omega
    have hhead := head?_longBasicBody hescaped cs rest
    rw [h] at hhead
    exact hhead rfl

/-- The body of a string over several lines reads back.  Up to two quotes at its end are read along
with the closing three. -/
theorem scanLongBasic_body {rest : List Char} (hrest : rest.head? ≠ some '"') {quotes : Nat}
    (hquotes : quotes ≤ 2) (cs : List Char) :
    scanLongBasic false (longBasicBody quotes cs ++ '"' :: '"' :: '"' :: rest) =
      some (cs, rest) := by
  induction cs generalizing quotes with
  | nil =>
    show some (scanTail '"' rest) = _
    rw [scanTail_of_head hrest]
  | cons c cs ih =>
    by_cases hc : c = '"'
    · subst hc
      by_cases hthird : quotes = 2
      · have hbody : longBasicBody quotes ('"' :: cs) = ['\\', '"'] ++ longBasicBody 0 cs := by
          rw [longBasicBody, if_pos rfl, if_pos hthird]
          rfl
        rw [hbody, List.append_assoc, scanLongBasic_escapes (.letter rfl), ih (by decide)]
        rfl
      · rw [longBasicBody_quote hthird]
        -- Whether the scan takes this quote for the first of the closing three depends on what
        -- follows it.
        by_cases hnone : cs = []
        · subst hnone
          show some (scanTail '"' ('"' :: rest)) = _
          rw [scanTail_one hrest]
        · by_cases hlast : quotes = 0 ∧ cs = ['"']
          · obtain ⟨rfl, rfl⟩ := hlast
            show some (scanTail '"' ('"' :: '"' :: rest)) = _
            rw [scanTail_two]
          · have hbody := longBasicBody_ne_two_quotes (Nat.succ_pos quotes) (by omega) hnone
              (fun hone hcs => hlast ⟨Nat.succ.inj hone, hcs⟩) ('"' :: '"' :: '"' :: rest)
            rw [List.cons_append, scanLongBasic_quote hbody, ih (by omega)]
            rfl
    · rw [scanLongBasic_other hc, ih (by decide)]
      rfl

theorem longestRun_go_append (c : Char) (longest current : Nat) (pre cs : List Char) :
    ∃ longest' current', longestRun.go c longest current (pre ++ cs) =
      longestRun.go c longest' current' cs := by
  induction pre generalizing longest current with
  | nil => exact ⟨longest, current, rfl⟩
  | cons d pre ih =>
    rw [List.cons_append, longestRun.go]
    split
    · exact ih _ _
    · exact ih _ _

theorem le_longestRun_go (c : Char) (longest current : Nat) (cs : List Char) :
    max longest current ≤ longestRun.go c longest current cs := by
  induction cs generalizing longest current with
  | nil => exact Nat.le_refl _
  | cons d cs ih =>
    rw [longestRun.go]
    split
    · have hle := ih longest (current + 1)
      omega
    · have hle := ih (max longest current) 0
      omega

theorem longestRun_eq_zero {c : Char} {cs : List Char} (h : longestRun c cs = 0) : c ∉ cs := by
  intro hmem
  obtain ⟨pre, post, rfl⟩ := List.append_of_mem hmem
  obtain ⟨longest, current, hgo⟩ := longestRun_go_append c 0 0 pre (c :: post)
  have hle := le_longestRun_go c longest (current + 1) post
  rw [longestRun, hgo, longestRun.go, if_pos rfl] at h
  omega

theorem not_infix_of_longestRun {c : Char} {cs : List Char} (h : longestRun c cs ≤ 2) :
    ¬[c, c, c] <:+: cs := by
  rintro ⟨pre, post, rfl⟩
  obtain ⟨longest, current, hgo⟩ := longestRun_go_append c 0 0 pre ([c, c, c] ++ post)
  have hrun : longestRun.go c longest current ([c, c, c] ++ post) =
      longestRun.go c longest (current + 3) post := by
    simp [longestRun.go]
  have hle := le_longestRun_go c longest (current + 3) post
  rw [longestRun, List.append_assoc, hgo, hrun] at h
  omega

theorem scanLongLiteral_plain {c : Char} (hprint : c = '\n' ∨ isPrintable c = true)
    (hquote : c ≠ '\'') (rest : List Char) :
    scanLongLiteral (c :: rest) = emit (some c) (scanLongLiteral rest) := by
  have hreturn : c ≠ '\r' := by
    rintro rfl
    simp [isPrintable] at hprint
  rw [scanLongLiteral, if_pos hprint]
  all_goals
    intros
    contradiction

theorem scanLongLiteral_quote {rest : List Char} (h : ∀ tail, rest ≠ '\'' :: '\'' :: tail) :
    scanLongLiteral ('\'' :: rest) = emit (some '\'') (scanLongLiteral rest) := by
  rw [scanLongLiteral]
  · rfl
  · intro tail _
    exact h tail
  all_goals
    intros
    simp_all

theorem scanLongLiteral_append {rest : List Char} (hrest : rest.head? ≠ some '\'')
    {cs : List Char} (hprint : ∀ c ∈ cs, c = '\n' ∨ isPrintable c = true)
    (hruns : ¬['\'', '\'', '\''] <:+: cs) :
    scanLongLiteral (cs ++ '\'' :: '\'' :: '\'' :: rest) = some (cs, rest) := by
  induction cs with
  | nil =>
    show some (scanTail '\'' rest) = _
    rw [scanTail_of_head hrest]
  | cons c cs ih =>
    have hnext := ih (fun d hd => hprint d (by simp [hd]))
      (fun h => hruns (h.trans (List.suffix_cons c cs).isInfix))
    by_cases hc : c = '\''
    · subst hc
      match cs with
      | [] =>
        show some (scanTail '\'' ('\'' :: rest)) = _
        rw [scanTail_one hrest]
      | [d] =>
        by_cases hd : d = '\''
        · subst hd
          show some (scanTail '\'' ('\'' :: '\'' :: rest)) = _
          rw [scanTail_two]
        · rw [List.cons_append, scanLongLiteral_quote, hnext]
          · rfl
          · intro tail htail
            exact hd (List.cons.inj htail).1
      | d :: e :: cs =>
        rw [List.cons_append, scanLongLiteral_quote, hnext]
        · rfl
        · rintro tail ⟨⟩
          exact hruns ⟨[], cs, rfl⟩
    · rw [List.cons_append, scanLongLiteral_plain (hprint c (by simp)) hc, hnext]
      rfl

theorem isPrintable_of_not_control {c : Char} (h : ¬isControl c = true) (hnewline : c ≠ '\n') :
    isPrintable c = true := by
  simp only [isControl, Bool.or_eq_true, Bool.and_eq_true, decide_eq_true_eq, not_or, ne_eq] at h
  simp only [isPrintable, Bool.or_eq_true, Bool.and_eq_true, decide_eq_true_eq, ne_eq]
  obtain ⟨hlow, hdelete⟩ := h
  by_cases htab : c = '\t'
  · exact Or.inl htab
  · exact Or.inr ⟨Nat.le_of_not_lt fun hlt => hlow ⟨⟨hlt, htab⟩, hnewline⟩, hdelete⟩

/-- A string that is written as it is within one line holds no apostrophe. -/
theorem Style.of_literal {cs : List Char} (h : Style.of cs = .literal) :
    ∀ c ∈ cs, isPrintable c = true ∧ c ≠ '\'' := by
  have hcs : cs.any isControl = false ∧ longestRun '\'' cs = 0 ∧ cs.contains '\n' = false := by
    simp only [Style.of] at h
    split_ifs at h with hbasic hliteral
    simpa [and_assoc] using hliteral
  obtain ⟨hcontrol, happostrophes, hnewline⟩ := hcs
  intro c hc
  have hnot : c ≠ '\n' := by
    rintro rfl
    simp [hc] at hnewline
  refine ⟨isPrintable_of_not_control (List.any_eq_false.mp hcontrol c hc) hnot, ?_⟩
  rintro rfl
  exact longestRun_eq_zero happostrophes hc

/-- A string that is written as it is over several lines holds no three apostrophes in a row. -/
theorem Style.of_longLiteral {cs : List Char} (h : Style.of cs = .longLiteral) :
    (∀ c ∈ cs, c = '\n' ∨ isPrintable c = true) ∧ ¬['\'', '\'', '\''] <:+: cs := by
  have hcs : cs.any isControl = false ∧ longestRun '\'' cs ≤ 2 := by
    simp only [Style.of] at h
    split_ifs at h with hbasic hliteral hlong hliteral
    simpa using hliteral
  obtain ⟨hcontrol, hruns⟩ := hcs
  refine ⟨fun c hc => ?_, not_infix_of_longestRun hruns⟩
  by_cases hnewline : c = '\n'
  · exact Or.inl hnewline
  · exact Or.inr (isPrintable_of_not_control (List.any_eq_false.mp hcontrol c hc) hnewline)

theorem dropNewline_leadingNewline {cs body : List Char}
    (h : '\n' ∉ cs → afterNewline? body = none) :
    dropNewline (leadingNewline cs ++ body) = body := by
  unfold leadingNewline dropNewline
  split
  · rfl
  · rename_i hnewline
    rw [List.nil_append, h (by simpa using hnewline)]
    rfl

theorem afterNewline?_of_head {cs : List Char} (hnewline : cs.head? ≠ some '\n')
    (hreturn : cs.head? ≠ some '\r') : afterNewline? cs = none := by
  unfold afterNewline?
  split
  · simp at hnewline
  · simp at hreturn
  · rfl

/-- The body of a string without newlines does not start with a line end. -/
theorem afterNewline?_longBasicBody {cs : List Char} (h : '\n' ∉ cs) (rest : List Char) :
    afterNewline? (longBasicBody 0 cs ++ '"' :: rest) = none := by
  cases cs with
  | nil => rfl
  | cons c cs =>
    have hnewline : c ≠ '\n' := fun he => h (by simp [he])
    rw [longBasicBody, if_neg hnewline]
    split
    · rfl
    · cases hescape : escape? c with
      | none =>
        have hreturn : c ≠ '\r' := by
          rintro rfl
          simp [escape?] at hescape
        exact afterNewline?_of_head (by simpa using hnewline) (by simpa using hreturn)
      | some es => cases escapes_of_escape? hescape <;> rfl

theorem afterNewline?_longLiteral {cs : List Char}
    (hprint : ∀ c ∈ cs, c = '\n' ∨ isPrintable c = true) (h : '\n' ∉ cs) (rest : List Char) :
    afterNewline? (cs ++ '\'' :: rest) = none := by
  cases cs with
  | nil => rfl
  | cons c cs =>
    have hnewline : c ≠ '\n' := fun he => h (by simp [he])
    have hreturn : c ≠ '\r' := by
      rintro rfl
      have hc := hprint '\r' (by simp)
      simp [isPrintable] at hc
    exact afterNewline?_of_head (by simpa using hnewline) (by simpa using hreturn)

theorem head?_flatMap_basicChar (cs : List Char) :
    (cs.flatMap basicChar).head? ≠ some '"' := by
  cases cs with
  | nil => simp
  | cons c cs =>
    rw [List.flatMap_cons, basicChar]
    split
    · simp
    · rename_i hquote
      split
      · simp
      · cases hescape : escape? c with
        | none => simpa using hquote
        | some es => cases escapes_of_escape? hescape <;> simp

/-- A quoted body that does not start with a quote itself is not taken for three quotes. -/
theorem ne_two_quotes {quote : Char} {body rest : List Char} (hbody : body.head? ≠ some quote)
    (hrest : rest.head? ≠ some quote) (tail : List Char) :
    body ++ quote :: rest ≠ quote :: quote :: tail := by
  intro h
  cases body with
  | nil =>
    rw [(List.cons.inj h).2] at hrest
    exact hrest rfl
  | cons c body =>
    rw [(List.cons.inj h).1] at hbody
    exact hbody rfl

/-- A quoted string reads back, whatever style was chosen for it. -/
theorem scanText_quote (s : String) {rest : List Char} (hquote : rest.head? ≠ some '"')
    (hapostrophe : rest.head? ≠ some '\'') :
    scanText (quote s ++ rest) = some (s.toList, rest) := by
  unfold quote
  cases h : Style.of s.toList with
  | basic =>
    simp only [h, List.cons_append, List.append_assoc, List.nil_append]
    rw [scanText, scanBasic_flatMap]
    exact ne_two_quotes (head?_flatMap_basicChar _) hquote
  | literal =>
    have hhead : s.toList.head? ≠ some '\'' :=
      fun he => (Style.of_literal h _ (List.mem_of_mem_head? he)).2 rfl
    simp only [h, List.cons_append, List.append_assoc, List.nil_append]
    rw [scanText, scanLiteral_append (Style.of_literal h)]
    exact ne_two_quotes hhead hapostrophe
  | longBasic =>
    simp only [h, List.cons_append, List.append_assoc, List.nil_append]
    rw [scanText, dropNewline_leadingNewline fun hnewline =>
      afterNewline?_longBasicBody hnewline _, scanLongBasic_body hquote (by decide)]
  | longLiteral =>
    obtain ⟨hprint, hruns⟩ := Style.of_longLiteral h
    simp only [h, List.cons_append, List.append_assoc, List.nil_append]
    rw [scanText, dropNewline_leadingNewline fun hnewline =>
      afterNewline?_longLiteral hprint hnewline _,
      scanLongLiteral_append hapostrophe hprint hruns]

end InventoryTokens.Toml

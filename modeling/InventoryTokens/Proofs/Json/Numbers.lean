import InventoryTokens.Proofs.Double.Plain
import InventoryTokens.Proofs.Json.Values

/-!
# Numbers inside a text

How a double is read does not depend on what closes it: a double that is read back from a text of
its own is read back wherever it stands.  Which doubles are read back is not settled here, because
digits and power of ten are rounded apart when a number is read.
-/

namespace InventoryTokens.Json

open Double (scanDigits scanExponent AllDigits)
open Text (natDigits intDigits)

/-- A double is read back from its own text. -/
def Keeps (x : Double) : Prop := read? (write (.number x)) = some (.number x)

/-- Whether a datum is a certain number. -/
def isNumber (x : Double) : Datum → Bool
  | .number y => y = x
  | _ => false

theorem isNumber_iff {x : Double} {d : Datum} : isNumber x d = true ↔ d = .number x := by
  cases d <;> simp [isNumber]

instance : DecidablePred Keeps := fun x =>
  decidable_of_iff ((read? (write (.number x))).any (isNumber x) = true) (by
    rw [Keeps, Option.any_eq_true]
    simp only [isNumber_iff, exists_eq_right])

/-- A scanner takes something off the front of a text, and takes the same if more follows that
closes a value. -/
def Stops {α : Type} (scan : List Char → Option (α × List Char)) : Prop :=
  ∀ cs a left, scan cs = some (a, left) →
    left <:+ cs ∧ ∀ rest, Closes rest → scan (cs ++ rest) = some (a, left ++ rest)

theorem Stops.bind {α β : Type} {scan : List Char → Option (α × List Char)}
    {next : α × List Char → Option (β × List Char)} (h : Stops scan)
    (hnext : ∀ a, Stops fun left => next (a, left)) : Stops fun cs => (scan cs).bind next := by
  intro cs b left hscan
  obtain ⟨⟨a, middle⟩, hfirst, hsecond⟩ := Option.bind_eq_some_iff.mp hscan
  obtain ⟨hmiddle, hfirst⟩ := h cs a middle hfirst
  obtain ⟨hleft, hsecond⟩ := hnext a middle b left hsecond
  refine ⟨hleft.trans hmiddle, fun rest hrest => ?_⟩
  simp only [hfirst rest hrest, Option.bind_some, hsecond rest hrest]

theorem Stops.map {α β : Type} {scan : List Char → Option (α × List Char)} (h : Stops scan)
    (f : α → β) : Stops fun cs => (scan cs).map fun (a, left) => (f a, left) := by
  intro cs b left hscan
  obtain ⟨⟨a, left⟩, hfirst, hpair⟩ := Option.map_eq_some_iff.mp hscan
  cases hpair
  obtain ⟨hleft, hmore⟩ := h cs a left hfirst
  refine ⟨hleft, fun rest hrest => ?_⟩
  simp only [hmore rest hrest, Option.map_some]

/-- A scanner that goes on behind a mark. -/
theorem Stops.behind {α : Type} {scan : List Char → Option (α × List Char)} (h : Stops scan)
    (mark : Char) {cs : List Char} {a : α} {left : List Char} (hscan : scan cs = some (a, left)) :
    left <:+ mark :: cs ∧ ∀ rest, Closes rest → scan (cs ++ rest) = some (a, left ++ rest) := by
  obtain ⟨hleft, hmore⟩ := h cs a left hscan
  exact ⟨hleft.trans (List.suffix_cons mark cs), hmore⟩

theorem stops_pure {α : Type} (a : α) : Stops fun cs => some (a, cs) := by
  intro cs b left hscan
  cases hscan
  exact ⟨List.suffix_rfl, fun rest _ => rfl⟩

theorem scanDigits_append_closes (cs : List Char) {rest : List Char} (hrest : Closes rest) :
    scanDigits (cs ++ rest) = ((scanDigits cs).1, (scanDigits cs).2 ++ rest) := by
  obtain ⟨digits, left, rfl, hdigits, hleft, hscan⟩ := Double.exists_scanDigits cs
  have hend : ∀ c ∈ (left ++ rest).head?, c.isDigit = false := by
    cases left with
    | nil => exact hrest.head rfl rfl rfl
    | cons d ds => exact hleft
  rw [hscan, List.append_assoc, Double.scanDigits_append hdigits hend]

/-- One or more digits. -/
theorem stops_digits {α : Type} (value : List Char → α) :
    Stops fun cs =>
      if (scanDigits cs).1 = [] then none
      else some (value (scanDigits cs).1, (scanDigits cs).2) := by
  intro cs a left hscan
  by_cases hnone : (scanDigits cs).1 = []
  · simp only [if_pos hnone, reduceCtorEq] at hscan
  · simp only [if_neg hnone, Option.some.injEq, Prod.mk.injEq] at hscan
    obtain ⟨rfl, rfl⟩ := hscan
    refine ⟨List.dropWhile_suffix _, fun rest hrest => ?_⟩
    simp only [scanDigits_append_closes cs hrest, if_neg hnone]

/-- A mark that closes nothing comes from the text itself. -/
theorem Closes.exists_of_append {rest : List Char} (h : Closes rest) {c : Char}
    (hmark : c ≠ ',' ∧ c ≠ ']' ∧ c ≠ '\x7d') {cs tail : List Char} (he : cs ++ rest = c :: tail) :
    ∃ tail, cs = c :: tail := by
  cases cs with
  | nil => exact absurd he (h.ne hmark.1 hmark.2.1 hmark.2.2 tail)
  | cons d cs => exact ⟨cs, by rw [(List.cons.inj he).1]⟩

theorem stops_scanWhole : Stops scanWhole := by
  intro cs a left hscan
  unfold scanWhole at hscan
  split at hscan
  case h_1 =>
    cases hscan
    exact ⟨List.suffix_cons _ _, fun rest _ => rfl⟩
  case h_2 hzero =>
    obtain ⟨hleft, hmore⟩ := stops_digits id cs a left hscan
    refine ⟨hleft, fun rest hrest => ?_⟩
    rw [scanWhole]
    · exact hmore rest hrest
    · intro tail he
      obtain ⟨tail, rfl⟩ := hrest.exists_of_append (by decide) he
      exact hzero tail rfl

theorem stops_scanFraction : Stops scanFraction := by
  intro cs a left hscan
  unfold scanFraction at hscan
  split at hscan
  case h_1 => exact (stops_digits some).behind '.' hscan
  case h_2 hpoint =>
    cases hscan
    refine ⟨List.suffix_rfl, fun rest hrest => ?_⟩
    rw [scanFraction]
    intro tail he
    obtain ⟨tail, rfl⟩ := hrest.exists_of_append (by decide) he
    exact hpoint tail rfl

theorem stops_unsigned : Stops scanExponent.unsigned :=
  stops_digits fun digits => ((Nat.ofDigitChars 10 digits 0 : Nat) : Int)

theorem stops_scanExponent : Stops scanExponent := by
  intro cs a left hscan
  unfold scanExponent at hscan
  split at hscan
  case h_1 => exact stops_unsigned.behind '+' hscan
  case h_2 => exact (stops_unsigned.map (- ·)).behind '-' hscan
  case h_3 hplus hminus =>
    obtain ⟨hleft, hmore⟩ := stops_unsigned cs a left hscan
    refine ⟨hleft, fun rest hrest => ?_⟩
    rw [scanExponent]
    · exact hmore rest hrest
    · intro tail he
      obtain ⟨tail, rfl⟩ := hrest.exists_of_append (by decide) he
      exact hplus tail rfl
    · intro tail he
      obtain ⟨tail, rfl⟩ := hrest.exists_of_append (by decide) he
      exact hminus tail rfl

theorem stops_scanPower : Stops scanPower := by
  intro cs a left hscan
  unfold scanPower at hscan
  split at hscan
  case h_1 => exact (stops_scanExponent.map some).behind 'e' hscan
  case h_2 => exact (stops_scanExponent.map some).behind 'E' hscan
  case h_3 hlower hupper =>
    cases hscan
    refine ⟨List.suffix_rfl, fun rest hrest => ?_⟩
    rw [scanPower.eq_def]
    split
    case h_1 he =>
      obtain ⟨tail, rfl⟩ := hrest.exists_of_append (by decide) he
      exact absurd rfl (hlower tail)
    case h_2 he =>
      obtain ⟨tail, rfl⟩ := hrest.exists_of_append (by decide) he
      exact absurd rfl (hupper tail)
    case h_3 => rfl

/-- Whole part, fraction and power one after the other. -/
theorem stops_scanNumber (negative : Bool) : Stops (scanNumber negative) := by
  refine stops_scanWhole.bind fun whole => stops_scanFraction.bind fun fraction =>
    stops_scanPower.bind fun power => ?_
  cases fraction <;> cases power <;> exact stops_pure _

theorem not_isSpace_of_isDigit {c : Char} (h : c.isDigit = true) : isSpace c = false := by
  have hstart := isStart_of_isDigit h
  simp only [isStart, Bool.and_eq_true, Bool.not_eq_true'] at hstart
  exact hstart.1.1

/-- A number as it is written without its sign: a digit first, and no blank. -/
structure IsNumeral (cs : List Char) : Prop where
  start : ∃ c tail, cs = c :: tail ∧ c.isDigit = true
  solid : ∀ c ∈ cs, isSpace c = false

theorem isNumeral_of_allDigits {cs : List Char} (hne : cs ≠ []) (h : AllDigits cs) :
    IsNumeral cs where
  start := by
    obtain ⟨c, tail, rfl⟩ := List.exists_cons_of_ne_nil hne
    exact ⟨c, tail, rfl, h c List.mem_cons_self⟩
  solid := fun c hc => not_isSpace_of_isDigit (h c hc)

theorem IsNumeral.append {cs ds : List Char} (h : IsNumeral cs)
    (hds : ∀ c ∈ ds, isSpace c = false) : IsNumeral (cs ++ ds) where
  start := by
    obtain ⟨c, tail, rfl, hc⟩ := h.start
    exact ⟨c, tail ++ ds, rfl, hc⟩
  solid := fun c hc => (List.mem_append.mp hc).elim (h.solid c) (hds c)

theorem isNumeral_of_positional {cs : List Char} {d : Decimal} (h : Double.Positional cs d) :
    IsNumeral cs where
  start := h.exists_head
  solid := by
    cases h with
    | whole hne hall => exact (isNumeral_of_allDigits hne hall).solid
    | @point cs ds hne hall =>
      intro c hc
      rw [List.mem_append, List.mem_cons] at hc
      obtain hc | rfl | hc := hc
      · exact not_isSpace_of_isDigit (hall c (List.mem_append_left ds hc))
      · rfl
      · exact not_isSpace_of_isDigit (hall c (List.mem_append_right cs hc))

theorem isNumeral_natDigits (n : Nat) : IsNumeral (natDigits n) :=
  isNumeral_of_allDigits (Text.natDigits_ne_nil n) (Double.allDigits_natDigits n)

theorem not_isSpace_of_mem_intDigits {n : Int} {c : Char} (h : c ∈ intDigits n) :
    isSpace c = false := by
  unfold intDigits at h
  split at h
  · obtain rfl | hdigit := List.mem_cons.mp h
    · rfl
    · exact (isNumeral_natDigits _).solid c hdigit
  · exact (isNumeral_natDigits _).solid c h

theorem isNumeral_scientific (d : Decimal) : IsNumeral (Double.scientific d) := by
  have hdigits := isNumeral_natDigits d.digits
  have hfirst : IsNumeral ((natDigits d.digits).take 1) := by
    obtain ⟨c, tail, hcs, hc⟩ := hdigits.start
    have hstart : (natDigits d.digits).take 1 = [c] := by rw [hcs]; rfl
    exact ⟨⟨c, [], hstart, hc⟩, fun c hmem => hdigits.solid c (List.mem_of_mem_take hmem)⟩
  simp only [Double.scientific]
  refine (hfirst.append ?_).append ?_
  · split
    · simp
    · intro c hmem
      obtain rfl | hdigit := List.mem_cons.mp hmem
      · rfl
      · exact hdigits.solid c (List.mem_of_mem_drop hdigit)
  · intro c hmem
    obtain rfl | hmem := List.mem_cons.mp hmem
    · rfl
    · obtain hsign | hdigit := List.mem_append.mp hmem
      · split at hsign
        · cases hsign
        · rw [List.mem_singleton.mp hsign]
          rfl
      · exact not_isSpace_of_mem_intDigits hdigit

theorem isNumeral_positional (d : Decimal) : IsNumeral (Double.positional d) := by
  by_cases hexp : 0 ≤ d.exponent
  · rw [Double.positional_of_nonneg hexp]
    refine (isNumeral_natDigits d.digits).append fun c hmem => ?_
    rw [List.eq_of_mem_replicate hmem]
    rfl
  · obtain ⟨cs, ds, htext, hpoint⟩ := Double.positional_of_neg (not_le.mp hexp)
    rw [htext]
    exact isNumeral_of_positional hpoint

/-- The layout of a finite double is a sign or none, and a numeral. -/
theorem exists_isNumeral_tagged (negative : Bool) (rank : Double.Rank) :
    ∃ body, (Double.finite negative rank).tagged? = some (Double.signChars negative ++ body) ∧
      IsNumeral body := by
  have hpointZero : ∀ c ∈ ['.', '0'], isSpace c = false := by
    intro c hc
    rw [List.mem_pair] at hc
    obtain rfl | rfl := hc <;> rfl
  refine ⟨_, rfl, ?_⟩
  split
  · exact (isNumeral_natDigits 0).append hpointZero
  · split
    · exact isNumeral_scientific _
    · split
      · exact (isNumeral_positional _).append hpointZero
      · exact isNumeral_positional _

/-- The text of a finite double has no blank, and starts with a sign or a digit. -/
theorem chars_number {x : Double} (hx : x.isFinite = true) :
    (∃ c tail, chars (.number x) = c :: tail ∧ (c = '-' ∨ c.isDigit = true)) ∧
      ∀ c ∈ chars (.number x), isSpace c = false := by
  match x, hx with
  | .finite negative rank, _ =>
    obtain ⟨body, htext, hbody⟩ := exists_isNumeral_tagged negative rank
    rw [chars, htext, Option.getD_some]
    obtain ⟨c, tail, rfl, hc⟩ := hbody.start
    cases negative with
    | true => exact ⟨⟨'-', _, rfl, Or.inl rfl⟩, List.forall_mem_cons.mpr ⟨rfl, hbody.solid⟩⟩
    | false => exact ⟨⟨c, tail, rfl, Or.inr hc⟩, hbody.solid⟩

theorem stops_scanPlain {c : Char} {cs : List Char} (hc : c = '-' ∨ c.isDigit = true) {d : Datum}
    {left : List Char} (hscan : scanPlain (c :: cs) = some (d, left)) :
    left <:+ c :: cs ∧ ∀ rest, Closes rest →
      scanPlain (c :: cs ++ rest) = some (d, left ++ rest) := by
  obtain rfl | hc := hc
  · exact (stops_scanNumber true).behind '-' hscan
  · rw [scanPlain_of_isDigit hc] at hscan
    obtain ⟨hleft, hmore⟩ := stops_scanNumber false _ d left hscan
    refine ⟨hleft, fun rest hrest => ?_⟩
    rw [List.cons_append, scanPlain_of_isDigit hc]
    exact hmore rest hrest

/-- A number starts as no list and no record does. -/
theorem isStart_of_number {c : Char} (hc : c = '-' ∨ c.isDigit = true) :
    isStart c = true ∧ c ≠ '[' ∧ c ≠ '\x7b' := by
  obtain rfl | hdigit := hc
  · decide
  · exact ⟨isStart_of_isDigit hdigit, ne_of_isDigit hdigit rfl, ne_of_isDigit hdigit rfl⟩

/-- A finite double is read back exactly if its own text is scanned as the double up to its end. -/
theorem keeps_iff {x : Double} (hx : x.isFinite = true) :
    Keeps x ↔ scanPlain (chars (.number x)) = some (.number x, []) := by
  obtain ⟨⟨c, cs, hchars, hc⟩, hsolid⟩ := chars_number hx
  obtain ⟨hstart, hbracket, hbrace⟩ := isStart_of_number hc
  rw [Keeps, read?, write, String.toList_ofList, hchars, scanValue_plain hstart hbracket hbrace]
  constructor
  · intro h
    split at h
    · rename_i d left hscan
      have hskip : skipSpace left = left := by
        rw [skipSpace, List.dropWhile_eq_self_iff]
        intro hpos
        rw [hsolid _ (hchars ▸ (stops_scanPlain hc hscan).1.subset (List.getElem_mem hpos))]
        exact Bool.false_ne_true
      rw [hskip] at h
      split at h
      · rename_i hnil
        rw [hscan, hnil, Option.some.inj h]
      · cases h
    · cases h
  · intro h
    rw [h]
    rfl

/-- A double that is read back from a text of its own is read back wherever it stands. -/
theorem readsBack_number {x : Double} (hx : x.isFinite = true) (h : Keeps x) :
    ReadsBack (.number x) := by
  have hscan := (keeps_iff hx).mp h
  obtain ⟨⟨c, cs, hchars, hc⟩, -⟩ := chars_number hx
  obtain ⟨hstart, hbracket, hbrace⟩ := isStart_of_number hc
  refine .of_plain hchars hstart hbracket hbrace fun rest hrest => ?_
  rw [hchars] at hscan ⊢
  exact (stops_scanPlain hc hscan).2 rest hrest

/-- What stands for a double in a text: itself if it is finite, else nothing. -/
def writtenNumber (x : Double) : Datum := if x.isFinite then .number x else .absent

theorem chars_writtenNumber (x : Double) : chars (writtenNumber x) = chars (.number x) := by
  cases x with
  | finite => rfl
  | infinite => simp [writtenNumber, Double.isFinite, chars, Double.tagged?]
  | nan => simp [writtenNumber, Double.isFinite, chars, Double.tagged?]

theorem readsBack_writtenNumber {x : Double} (h : x.isFinite = true → Keeps x) :
    ReadsBack (writtenNumber x) := by
  unfold writtenNumber
  split
  · rename_i hx
    exact readsBack_number hx (h hx)
  · exact readsBack_absent

theorem chars_list_congr {ds es : List Datum}
    (h : List.Forall₂ (fun d e => chars d = chars e) ds es) :
    chars (.list ds) = chars (.list es) := by
  have hitems : ∀ {ds es : List Datum}, List.Forall₂ (fun d e => chars d = chars e) ds es →
      charsItems ds = charsItems es := by
    intro ds es h
    induction h with
    | nil => rfl
    | cons hd _ ih => rw [charsItems, charsItems, hd, ih]
  cases h with
  | nil => rfl
  | cons hd h => rw [chars, chars, hd, hitems h]

theorem chars_record_congr {ms ns : List (String × Datum)}
    (h : List.Forall₂ (fun m n => charsMember m = charsMember n) ms ns) :
    chars (.record ms) = chars (.record ns) := by
  have hmembers : ∀ {ms ns : List (String × Datum)},
      List.Forall₂ (fun m n => charsMember m = charsMember n) ms ns →
      charsMembers ms = charsMembers ns := by
    intro ms ns h
    induction h with
    | nil => rfl
    | cons hm _ ih => rw [charsMembers, charsMembers, hm, ih]
  cases h with
  | nil => rfl
  | cons hm h => rw [chars, chars, hm, hmembers h]

end InventoryTokens.Json

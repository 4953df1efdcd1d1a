import AutomationNet.Json.Reading
import AutomationNet.Json.Written
import AutomationNet.Proofs.Fallible
import AutomationNet.Proofs.Scanning
import Mathlib.Data.List.TakeWhile

/-!
# Written numbers, scanned

A number that is read as it is written is scanned as itself, too, where the text goes on after it,
as long as what follows does not go on with the number. Whole numbers within 64 bits are such
numbers, and all whole numbers that are scanned are within 64 bits.

* `NumberEnds` : a text before which a number ends
* `scanUnsigned_append` : a number that is the whole of a text is scanned before such a text, too
* `IsNumeral` : the texts that numbers are written as, after an optional minus
* `Number.Fits`, `scannedNumber_unsigned` : the numbers that are scanned, and where they end
* `Number.ReadsBack.scanValue_append` : **a number that reads back is scanned as itself**
* `Number.Fits.readsBack` : **whole numbers within 64 bits read back**
-/

namespace AutomationNet.Json

/-! ## A number and what follows it -/

/-- No digit, point or exponent goes on with a number. -/
def NumberEnds (rest : List Char) : Prop :=
  ∀ c ∈ rest.head?, c.isDigit = false ∧ c ≠ '.' ∧ c ≠ 'e' ∧ c ≠ 'E'

theorem NumberEnds.takeWhile_append {rest : List Char} (h : NumberEnds rest) (text : List Char) :
    (text ++ rest).takeWhile Char.isDigit = text.takeWhile Char.isDigit :=
  takeWhile_append_stop text fun c hc => (h c hc).1

theorem NumberEnds.dropWhile_append {rest : List Char} (h : NumberEnds rest) (text : List Char) :
    (text ++ rest).dropWhile Char.isDigit = text.dropWhile Char.isDigit ++ rest :=
  dropWhile_append_stop text fun c hc => (h c hc).1

theorem splitSign_append {text : List Char} (h : text ≠ []) (rest : List Char) :
    Binary64.splitSign (text ++ rest) =
      ((Binary64.splitSign text).1, (Binary64.splitSign text).2 ++ rest) := by
  match text, h with
  | c :: text, _ =>
    by_cases hplus : c = '+'
    · subst hplus
      rfl
    · by_cases hminus : c = '-'
      · subst hminus
        rfl
      · rw [List.cons_append, Binary64.splitSign, Binary64.splitSign] <;> simp_all

/-! A number that is the whole of a text is also scanned where the text goes on after it. -/

section

variable {negative : Bool} {text rest : List Char} {scan : Scan}

theorem scanExponent_append {mantissa : Nat} {start : Int} (hrest : NumberEnds rest)
    (h : scanExponent negative mantissa start text = (scan, some [])) :
    scanExponent negative mantissa start (text ++ rest) = (scan, some rest) := by
  have hne : text ≠ [] := by
    rintro rfl
    cases h
  simp only [scanExponent, splitSign_append hne, hrest.takeWhile_append,
    hrest.dropWhile_append] at h ⊢
  split at h
  · exact absurd (Prod.mk.inj h).2 (by simp)
  · rename_i hdigits
    obtain ⟨hscan, hend⟩ := Prod.mk.inj h
    rw [if_neg hdigits, hscan, Option.some.inj hend, List.nil_append]

/-- What comes after the digits of a number: its exponent, or its end. -/
def exponentOrEnd (exponent : List Char → Scanned) (whole : Scan) : List Char → Scanned
  | 'e' :: text => exponent text
  | 'E' :: text => exponent text
  | text => (whole, some text)

theorem exponentOrEnd_eq {exponent : List Char → Scanned} {whole : Scan} (hrest : NumberEnds rest) :
    exponentOrEnd exponent whole rest = (whole, some rest) := by
  cases rest with
  | nil => rfl
  | cons c rest =>
    obtain ⟨-, -, he, hE⟩ := hrest c rfl
    rw [exponentOrEnd] <;> simp [he, hE]

theorem exponentOrEnd_append {exponent : List Char → Scanned} {whole : Scan}
    (hrest : NumberEnds rest)
    (hexponent : ∀ text, exponent text = (scan, some []) →
      exponent (text ++ rest) = (scan, some rest))
    (h : exponentOrEnd exponent whole text = (scan, some [])) :
    exponentOrEnd exponent whole (text ++ rest) = (scan, some rest) := by
  match text with
  | [] =>
    obtain ⟨rfl, -⟩ := Prod.mk.inj h
    exact exponentOrEnd_eq hrest
  | c :: text =>
    by_cases he : c = 'e'
    · subst he
      exact hexponent text h
    by_cases hE : c = 'E'
    · subst hE
      exact hexponent text h
    rw [exponentOrEnd] at h
    · cases h
    · simp [he]
    · simp [hE]

theorem scanFraction_eq (negative : Bool) (m : Mantissa) (text : List Char) :
    scanFraction negative m text =
      let digits := text.takeWhile Char.isDigit
      let rest := text.dropWhile Char.isDigit
      let all := digits.foldl Mantissa.push ⟨m.value, 0⟩
      let start : Int := m.dropped + all.dropped - digits.length
      if digits.isEmpty then
        (.broken (if rest.isEmpty then .ended else .malformed) .malformed, none)
      else
        exponentOrEnd (scanExponent negative all.value start)
          (.number (doubleNumber negative all.value start 0)) rest := rfl

theorem scanFraction_append {m : Mantissa} (hrest : NumberEnds rest)
    (h : scanFraction negative m text = (scan, some [])) :
    scanFraction negative m (text ++ rest) = (scan, some rest) := by
  simp only [scanFraction_eq, hrest.takeWhile_append, hrest.dropWhile_append] at h ⊢
  split at h
  · exact absurd (Prod.mk.inj h).2 (by simp)
  · rename_i hdigits
    rw [if_neg hdigits]
    exact exponentOrEnd_append hrest (fun text => scanExponent_append hrest) h

/-- What comes after the digits before the point. -/
def fractionOrEnd (negative : Bool) (m : Mantissa) : List Char → Scanned
  | '.' :: text => scanFraction negative m text
  | text =>
    exponentOrEnd (scanExponent negative m.value m.dropped) (.number (wholeNumber negative m)) text

theorem fractionOrEnd_append {m : Mantissa} (hrest : NumberEnds rest)
    (h : fractionOrEnd negative m text = (scan, some [])) :
    fractionOrEnd negative m (text ++ rest) = (scan, some rest) := by
  match text with
  | [] =>
    obtain ⟨rfl, -⟩ := Prod.mk.inj h
    cases rest with
    | nil => rfl
    | cons c rest =>
      have hpoint : c ≠ '.' := (hrest c rfl).2.1
      rw [List.nil_append, fractionOrEnd]
      · exact exponentOrEnd_eq hrest
      · simp [hpoint]
  | c :: text =>
    by_cases hpoint : c = '.'
    · subst hpoint
      exact scanFraction_append hrest h
    · rw [fractionOrEnd] at h
      · rw [List.cons_append, fractionOrEnd]
        · exact exponentOrEnd_append hrest (fun text => scanExponent_append hrest) h
        · simp [hpoint]
      · simp [hpoint]

theorem scanUnsigned_eq {digits : List Char} (hdigits : text.takeWhile Char.isDigit = digits)
    (hne : digits ≠ []) (hzero : ∀ c tail, digits ≠ '0' :: c :: tail) :
    scanUnsigned negative text =
      fractionOrEnd negative (digits.foldl Mantissa.push ⟨0, 0⟩) (text.dropWhile Char.isDigit) := by
  rw [scanUnsigned, hdigits]
  split
  · exact absurd rfl hne
  · exact absurd rfl (hzero _ _)
  · split
    · rename_i h
      rw [h]
      rfl
    · rename_i h
      rw [h]
      rfl
    · rename_i h
      rw [h]
      rfl
    · rename_i hpoint he hE
      rw [fractionOrEnd, exponentOrEnd]
      · exact he
      · exact hE
      · exact hpoint

/-- A number without any digits, or with a zero before others, is broken off. -/
theorem scanUnsigned_cases (negative : Bool) (text : List Char) :
    (∃ wanted, scanUnsigned negative text = (.broken wanted .malformed, none)) ∨
      text.takeWhile Char.isDigit ≠ [] ∧
        ∀ c tail, text.takeWhile Char.isDigit ≠ '0' :: c :: tail := by
  by_cases hne : text.takeWhile Char.isDigit = []
  · exact .inl ⟨_, by rw [scanUnsigned, hne]⟩
  by_cases hzero : ∃ c tail, text.takeWhile Char.isDigit = '0' :: c :: tail
  · obtain ⟨c, tail, hzero⟩ := hzero
    refine .inl ⟨.malformed, ?_⟩
    rw [scanUnsigned, hzero]
    rfl
  · exact .inr ⟨hne, fun c tail htext => hzero ⟨c, tail, htext⟩⟩

theorem scanUnsigned_append (hrest : NumberEnds rest)
    (h : scanUnsigned negative text = (scan, some [])) :
    scanUnsigned negative (text ++ rest) = (scan, some rest) := by
  rcases scanUnsigned_cases negative text with ⟨wanted, hbroken⟩ | ⟨hne, hzero⟩
  · rw [hbroken] at h
    cases h
  · rw [scanUnsigned_eq rfl hne hzero] at h
    rw [scanUnsigned_eq (hrest.takeWhile_append text) hne hzero, hrest.dropWhile_append]
    exact fractionOrEnd_append hrest h

end

/-! ## Written numbers -/

/-- A digit first, and no blank after it. -/
def IsNumeral (text : List Char) : Prop :=
  (∃ c ∈ text.head?, c.isDigit) ∧ ∀ c ∈ text, isSpace c = false

theorem IsNumeral.append {text tail : List Char} (h : IsNumeral text)
    (htail : ∀ c ∈ tail, isSpace c = false) : IsNumeral (text ++ tail) := by
  obtain ⟨⟨c, hc, hdigit⟩, htext⟩ := h
  refine ⟨⟨c, List.mem_head?_append_of_mem_head? hc, hdigit⟩, ?_⟩
  intro x hx
  rcases List.mem_append.mp hx with hx | hx
  · exact htext x hx
  · exact htail x hx

theorem isSpace_of_isDigit {c : Char} (h : c.isDigit) : isSpace c = false := by
  by_contra hspace
  simp only [isSpace, Bool.or_eq_true, decide_eq_true_eq, Bool.not_eq_false] at hspace
  rcases hspace with ((rfl | rfl) | rfl) | rfl <;> simp at h

theorem IsNumeral.of_digits {digits : List Char} (hne : digits ≠ [])
    (h : ∀ c ∈ digits, c.isDigit) : IsNumeral digits := by
  match digits, hne with
  | c :: digits, _ =>
    exact ⟨⟨c, rfl, h c (by simp)⟩, fun x hx => isSpace_of_isDigit (h x hx)⟩

theorem isDigit_toDigits (n : Nat) : ∀ c ∈ Nat.toDigits 10 n, c.isDigit := fun _ hc =>
  Nat.isDigit_of_mem_toDigits (by decide) (by decide) hc

theorem IsNumeral.toDigits (n : Nat) : IsNumeral (Nat.toDigits 10 n) :=
  .of_digits Nat.toDigits_ne_nil (isDigit_toDigits n)

theorem IsNumeral.place {digits : List Char} (hne : digits ≠ []) (h : ∀ c ∈ digits, c.isDigit)
    (wholePoint : Bool) (exponent : Int) :
    IsNumeral (DecimalStyle.place wholePoint digits exponent) := by
  unfold DecimalStyle.place
  split
  · refine ((IsNumeral.of_digits hne h).append ?_).append ?_
    · intro c hc
      rw [List.eq_of_mem_replicate hc]
      rfl
    · cases wholePoint <;> simp [isSpace]
  · dsimp only
    split
    · have htake : IsNumeral (digits.take (digits.length - (-exponent).toNat)) := by
        refine .of_digits ?_ fun c hc => h c (List.mem_of_mem_take hc)
        simp [List.take_eq_nil_iff, hne]
        omega
      refine htake.append ?_
      intro c hc
      rcases List.mem_cons.mp hc with rfl | hc
      · rfl
      · exact isSpace_of_isDigit (h c (List.mem_of_mem_drop hc))
    · refine IsNumeral.append ⟨⟨'0', rfl, rfl⟩, ?_⟩ fun c hc => isSpace_of_isDigit (h c hc)
      intro c hc
      simp only [List.mem_cons] at hc
      rcases hc with rfl | rfl | hc
      · rfl
      · rfl
      · rw [List.eq_of_mem_replicate hc]
        rfl

theorem IsNumeral.scientific {digits : List Char} (hne : digits ≠ []) (h : ∀ c ∈ digits, c.isDigit)
    (leading : Int) : IsNumeral (DecimalStyle.scientific digits leading) := by
  have hblank : ∀ c ∈ digits, isSpace c = false := fun c hc => isSpace_of_isDigit (h c hc)
  have hfirst : IsNumeral (digits.take 1) :=
    .of_digits (by simp [hne]) fun c hc => h c (List.mem_of_mem_take hc)
  have hexponent := (IsNumeral.toDigits leading.natAbs).2
  refine (hfirst.append ?_).append ?_
  · intro c hc
    split at hc
    · cases hc
    · rcases List.mem_cons.mp hc with rfl | hc
      · rfl
      · exact hblank c (List.mem_of_mem_drop hc)
  · intro c hc
    simp only [List.mem_cons] at hc
    rcases hc with rfl | rfl | hc
    · rfl
    · split <;> rfl
    · exact hexponent c hc

theorem IsNumeral.renderRank (style : DecimalStyle) (rank : Nat) :
    IsNumeral (style.renderRank rank) := by
  have hzero : ∀ c ∈ ['0'], c.isDigit := by simp
  unfold DecimalStyle.renderRank
  split
  · exact .place (by simp) hzero _ _
  · dsimp only
    split
    · exact .place Nat.toDigits_ne_nil (isDigit_toDigits _) _ _
    · exact .scientific Nat.toDigits_ne_nil (isDigit_toDigits _) _

/-- A number is written as a numeral, after a minus or not, unless it has no written form. -/
theorem Number.written_cases (n : Number) :
    (∃ text, IsNumeral text ∧ (n.written = text ∨ n.written = '-' :: text)) ∨
      n.written = ['n', 'u', 'l', 'l'] := by
  match n with
  | .whole i =>
    refine .inl ⟨_, .toDigits i.natAbs, ?_⟩
    by_cases hnegative : i < 0
    · exact .inr (by rw [Number.written, if_pos hnegative])
    · exact .inl (by rw [Number.written, if_neg hnegative])
  | .double x =>
    by_cases hfinite : x.isFinite
    · have hrank : x.rank < Binary64.infinityRank := by simpa [Binary64.isFinite] using hfinite
      have hnan : ¬ x.isNaN := by
        simp only [Binary64.isNaN, decide_eq_true_eq]
        omega
      have hinfinite : ¬ x.isInfinite := by
        simp only [Binary64.isInfinite, decide_eq_true_eq]
        omega
      refine .inl ⟨_, .renderRank doubleStyle x.rank, ?_⟩
      rw [Number.written, if_pos hfinite, DecimalStyle.render, if_neg hnan, if_neg hinfinite,
        String.toList_ofList]
      by_cases hnegative : x.negative
      · exact .inr (by rw [if_pos hnegative])
      · exact .inl (by rw [if_neg hnegative])
    · exact .inr (by rw [Number.written, if_neg hfinite])

/-- A number that is read as it is written. -/
def Number.ReadsBack (n : Number) : Prop := parse (compact (.number n)) = .ok (.number n)

instance (n : Number) : Decidable n.ReadsBack := inferInstanceAs (Decidable (_ = _))

theorem asValue_eq_number {depth : Nat} {scan : Scan} {n : Number}
    (h : scan.asValue depth = .ok (.number n)) : scan = .number (some n) := by
  match scan with
  | .number (some m) =>
    injection h with h
    injection h with h
    rw [h]
  | .array items ending =>
    match depth with
    | 0 | 1 => cases h
    | depth + 2 =>
      rw [Scan.asValue] at h
      obtain ⟨values, -, h⟩ := bind_eq_ok.mp h
      obtain ⟨-, -, h⟩ := bind_eq_ok.mp h
      cases h
  | .object members ending =>
    match depth with
    | 0 | 1 => cases h
    | depth + 2 =>
      rw [Scan.asValue] at h
      obtain ⟨values, -, h⟩ := bind_eq_ok.mp h
      obtain ⟨-, -, h⟩ := bind_eq_ok.mp h
      cases h
  | .null | .bool _ | .number none | .string none | .string (some _) | .missing
  | .brokenString _ _ | .broken _ _ => cases h

theorem readText_eq_ok {α : Type} {read : Scan → Except Fault α} {text : String} {a : α} :
    readText read text = .ok a ↔
      read (scan text.toList).1 = .ok a ∧ ∀ rest ∈ (scan text.toList).2, skipSpace rest = [] := by
  unfold readText
  generalize scan text.toList = scanned
  obtain ⟨tree, rest⟩ := scanned
  cases hread : read tree with
  | error fault => simp [hread, bind_error]
  | ok value =>
    cases rest with
    | none => simp [hread, bind_ok, pure, Except.pure]
    | some rest =>
      by_cases hblank : skipSpace rest = []
      · simp [hread, bind_ok, pure, Except.pure, hblank]
      · simp [hread, bind_ok, hblank]

/-! ## Scanned numbers -/

/-- A whole number within 64 bits, signed or unsigned. -/
def Number.Fits : Number → Prop
  | .whole i => -0x8000000000000000 ≤ i ∧ i ≤ 0xFFFFFFFFFFFFFFFF
  | .double _ => True

/-- A number broken off, or a number within its bounds that ends inside the text. -/
inductive ScannedNumber (text : List Char) : Scanned → Prop
  | broken (wanted skipped : Fault) : ScannedNumber text (.broken wanted skipped, none)
  | number {value : Option Number} {rest : List Char} :
      (∀ n ∈ value, n.Fits) → rest <:+ text → ScannedNumber text (.number value, some rest)

theorem ScannedNumber.mono {text text' : List Char} {scanned : Scanned}
    (h : ScannedNumber text scanned) (htext : text <:+ text') : ScannedNumber text' scanned := by
  cases h with
  | broken wanted skipped => exact .broken wanted skipped
  | number hfits hrest => exact .number hfits (hrest.trans htext)

section

variable (negative : Bool) (text : List Char)

theorem doubleNumber_fits (mantissa : Nat) (start exponent : Int) :
    ∀ n ∈ doubleNumber negative mantissa start exponent, n.Fits := by
  intro n hn
  obtain ⟨x, -, rfl⟩ := Option.map_eq_some_iff.mp hn
  exact trivial

theorem scannedNumber_exponent (mantissa : Nat) (start : Int) :
    ScannedNumber text (scanExponent negative mantissa start text) := by
  have hsign : (Binary64.splitSign text).2 <:+ text := by
    unfold Binary64.splitSign
    split
    · exact List.suffix_cons _ _
    · exact List.suffix_cons _ _
    · exact List.suffix_refl _
  unfold scanExponent
  dsimp only
  split
  · exact .broken _ _
  · exact .number (doubleNumber_fits _ _ _ _) ((List.dropWhile_suffix _).trans hsign)

theorem scannedNumber_exponentOrEnd {exponent : List Char → Scanned} {whole : Option Number}
    (hexponent : ∀ text, ScannedNumber text (exponent text)) (hwhole : ∀ n ∈ whole, n.Fits) :
    ScannedNumber text (exponentOrEnd exponent (.number whole) text) := by
  unfold exponentOrEnd
  split
  · exact (hexponent _).mono (List.suffix_cons _ _)
  · exact (hexponent _).mono (List.suffix_cons _ _)
  · exact .number hwhole (List.suffix_refl _)

theorem scannedNumber_fraction (m : Mantissa) :
    ScannedNumber text (scanFraction negative m text) := by
  rw [scanFraction_eq]
  dsimp only
  split
  · exact .broken _ _
  · exact (scannedNumber_exponentOrEnd _ (fun text => scannedNumber_exponent negative text _ _)
      (doubleNumber_fits _ _ _ _)).mono (List.dropWhile_suffix _)

theorem push_value_le (digits : List Char) {m : Mantissa} (hm : m.value ≤ Numeral.maxNat64) :
    (digits.foldl Mantissa.push m).value ≤ Numeral.maxNat64 := by
  induction digits generalizing m with
  | nil => exact hm
  | cons c digits ih =>
    refine ih ?_
    unfold Mantissa.push
    dsimp only
    split
    · rename_i h
      exact h.2
    · exact hm

theorem wholeNumber_fits {m : Mantissa} (hm : m.value ≤ Numeral.maxNat64) :
    ∀ n ∈ wholeNumber negative m, n.Fits := by
  intro n hn
  unfold Numeral.maxNat64 at hm
  unfold wholeNumber at hn
  split at hn
  · split at hn
    · cases hn
      simp only [Number.Fits]
      omega
    · split at hn
      · cases hn
        simp only [Number.Fits]
        omega
      · cases hn
        exact trivial
  · obtain ⟨x, -, rfl⟩ := Option.map_eq_some_iff.mp hn
    exact trivial

theorem scannedNumber_unsigned : ScannedNumber text (scanUnsigned negative text) := by
  rcases scanUnsigned_cases negative text with ⟨wanted, hbroken⟩ | ⟨hne, hzero⟩
  · rw [hbroken]
    exact .broken _ _
  · rw [scanUnsigned_eq rfl hne hzero]
    refine ScannedNumber.mono ?_ (List.dropWhile_suffix Char.isDigit)
    generalize text.dropWhile Char.isDigit = after
    unfold fractionOrEnd
    split
    · exact (scannedNumber_fraction _ _ _).mono (List.suffix_cons _ _)
    · exact scannedNumber_exponentOrEnd _ (fun text => scannedNumber_exponent negative text _ _)
        (wholeNumber_fits _ (push_value_le _ (Nat.zero_le _)))

end

/-! ## Numbers that read back -/

theorem scanValue_digit {c : Char} (hc : c.isDigit) (text : List Char) (budget : Nat) :
    scanValue (budget + 1) (c :: text) = scanUnsigned false (c :: text) := by
  have hstart : skipSpace (c :: text) = c :: text := by
    rw [skipSpace, List.dropWhile_cons, isSpace_of_isDigit hc, if_neg (by decide)]
  rw [scanValue, hstart]
  split <;> simp_all

theorem scanValue_minus (text : List Char) (budget : Nat) :
    scanValue (budget + 1) ('-' :: text) = scanUnsigned true text := by
  rw [scanValue]
  rfl

theorem IsNumeral.scanValue_append {text : List Char} (h : IsNumeral text) (rest : List Char)
    (budget : Nat) : scanValue (budget + 1) (text ++ rest) = scanUnsigned false (text ++ rest) := by
  obtain ⟨⟨c, hc, hdigit⟩, -⟩ := h
  match text, hc with
  | c :: text, rfl => exact scanValue_digit hdigit _ _

theorem IsNumeral.scanUnsigned_eq {negative : Bool} {text : List Char} (h : IsNumeral text)
    {depth : Nat} {n : Number}
    (hvalue : (scanUnsigned negative text).1.asValue depth = .ok (.number n))
    (hblank : ∀ rest ∈ (scanUnsigned negative text).2, skipSpace rest = []) :
    scanUnsigned negative text = (.number (some n), some []) := by
  have hscanned := scannedNumber_unsigned negative text
  generalize scanUnsigned negative text = scanned at hscanned hvalue hblank
  cases hscanned with
  | broken wanted skipped => cases hvalue
  | @number value rest _ hsuffix =>
    have hend : rest = [] := by
      cases rest with
      | nil => rfl
      | cons c rest =>
        have hspace : isSpace c = false := h.2 c (hsuffix.subset List.mem_cons_self)
        have hskip := hblank _ rfl
        rw [skipSpace, List.dropWhile_cons, hspace, if_neg (by decide)] at hskip
        cases hskip
    have hnumber : Scan.number value = .number (some n) := asValue_eq_number hvalue
    rw [hnumber, hend]

theorem Number.ReadsBack.written_cases {n : Number} (h : n.ReadsBack) :
    ∃ text, IsNumeral text ∧
      ((n.written = text ∧ scanUnsigned false text = (.number (some n), some [])) ∨
        n.written = '-' :: text ∧ scanUnsigned true text = (.number (some n), some [])) := by
  have hread := readText_eq_ok.mp h
  simp only [compact, compactChars, String.toList_ofList, Json.scan] at hread
  rcases n.written_cases with ⟨text, htext, hwritten | hwritten⟩ | hwritten
  · have hscan : ∀ budget, scanValue (budget + 1) text = scanUnsigned false text := by
      intro budget
      simpa using htext.scanValue_append [] budget
    rw [hwritten, hscan] at hread
    exact ⟨text, htext, .inl ⟨hwritten, htext.scanUnsigned_eq hread.1 hread.2⟩⟩
  · rw [hwritten, scanValue_minus] at hread
    exact ⟨text, htext, .inr ⟨hwritten, htext.scanUnsigned_eq hread.1 hread.2⟩⟩
  · rw [hwritten] at hread
    cases hread.1

/-- **A number that reads back is scanned as itself**, whatever ends it. -/
theorem Number.ReadsBack.scanValue_append {n : Number} (h : n.ReadsBack) {rest : List Char}
    (hrest : NumberEnds rest) (budget : Nat) :
    scanValue (budget + 1) (n.written ++ rest) = (.number (some n), some rest) := by
  obtain ⟨text, htext, ⟨hwritten, hscan⟩ | ⟨hwritten, hscan⟩⟩ := h.written_cases
  · rw [hwritten, htext.scanValue_append]
    exact scanUnsigned_append hrest hscan
  · rw [hwritten, List.cons_append, scanValue_minus]
    exact scanUnsigned_append hrest hscan

/-! ## Whole numbers read back -/

theorem push_digitChar {m d : Nat} (hd : d < 10) (hm : m * 10 + d ≤ Numeral.maxNat64) :
    Mantissa.push ⟨m, 0⟩ (Nat.digitChar d) = ⟨m * 10 + d, 0⟩ := by
  have hdigit : ∀ d < 10, (Nat.digitChar d).toNat - '0'.toNat = d := by decide
  rw [Mantissa.push, hdigit d hd]
  exact if_pos ⟨rfl, hm⟩

/-- The digits of a number within 64 bits are pushed one after another. -/
theorem foldl_push_toDigits (n : Nat) (hn : n ≤ Numeral.maxNat64) :
    (Nat.toDigits 10 n).foldl Mantissa.push ⟨0, 0⟩ = ⟨n, 0⟩ := by
  induction n using Nat.strongRecOn with
  | ind n ih =>
    rw [Nat.toDigits_eq_if (by decide)]
    split
    · rename_i hsmall
      rw [List.foldl_cons, push_digitChar hsmall (by omega), Nat.zero_mul, Nat.zero_add]
      rfl
    · have hdiv : n / 10 < n := by omega
      have hnext : n / 10 * 10 + n % 10 = n := Nat.div_add_mod' n 10
      rw [List.foldl_append, ih (n / 10) hdiv (by omega), List.foldl_cons,
        push_digitChar (Nat.mod_lt n (by decide)) (by omega), hnext]
      rfl

theorem head_toDigits (n : Nat) (hn : 0 < n) : (Nat.toDigits 10 n).head? ≠ some '0' := by
  induction n using Nat.strongRecOn with
  | ind n ih =>
    rw [Nat.toDigits_eq_if (by decide)]
    split
    · rename_i hsmall
      have hdigit : ∀ d < 10, 0 < d → Nat.digitChar d ≠ '0' := by decide
      rw [List.head?_cons]
      intro h
      exact hdigit n hsmall hn (Option.some.inj h)
    · have hdiv : n / 10 < n := by omega
      rw [List.head?_append_of_ne_nil _ Nat.toDigits_ne_nil]
      exact ih (n / 10) hdiv (by omega)

theorem toDigits_leading (n : Nat) (c : Char) (tail : List Char) :
    Nat.toDigits 10 n ≠ '0' :: c :: tail := by
  intro h
  rcases Nat.eq_zero_or_pos n with rfl | hn
  · cases h
  · exact head_toDigits n hn (by rw [h]; rfl)

theorem scanUnsigned_toDigits (negative : Bool) {n : Nat} (hn : n ≤ Numeral.maxNat64) :
    scanUnsigned negative (Nat.toDigits 10 n) = (.number (wholeNumber negative ⟨n, 0⟩), some []) := by
  have hdigits := isDigit_toDigits n
  rw [scanUnsigned_eq (List.takeWhile_eq_self_iff.mpr hdigits) Nat.toDigits_ne_nil
    (toDigits_leading n), List.dropWhile_eq_nil_iff.mpr hdigits, foldl_push_toDigits n hn]
  rfl

/-- **Whole numbers within 64 bits read back.** -/
theorem Number.Fits.readsBack {i : Int} (h : (Number.whole i).Fits) : (Number.whole i).ReadsBack := by
  obtain ⟨hlow, hhigh⟩ := h
  have hmax : i.natAbs ≤ Numeral.maxNat64 := by
    unfold Numeral.maxNat64
    omega
  have hscan : scan (Number.whole i).written = (.number (some (.whole i)), some []) := by
    by_cases hnegative : i < 0
    · have hwhole : wholeNumber true ⟨i.natAbs, 0⟩ = some (.whole i) := by
        have hrange : 0 < i.natAbs ∧ i.natAbs ≤ 0x8000000000000000 := by omega
        have hvalue : -(i.natAbs : Int) = i := by omega
        rw [wholeNumber, if_pos rfl, if_neg (by decide), if_pos hrange, hvalue]
      rw [Number.written, if_pos hnegative, Json.scan, scanValue_minus,
        scanUnsigned_toDigits true hmax, hwhole]
    · have hvalue : (i.natAbs : Int) = i := by omega
      have hdigits := (IsNumeral.toDigits i.natAbs).scanValue_append []
      rw [List.append_nil] at hdigits
      have hwhole : wholeNumber false ⟨i.natAbs, 0⟩ = some (.whole i) := by
        rw [wholeNumber, if_pos rfl, if_pos (by rfl), hvalue]
      rw [Number.written, if_neg hnegative, Json.scan, hdigits, scanUnsigned_toDigits false hmax,
        hwhole]
  refine readText_eq_ok.mpr ?_
  rw [compact, String.toList_ofList, compactChars, hscan]
  exact ⟨rfl, by simp [skipSpace]⟩

/- A double need not read back: `0.10000325520833293` has more digits than a double holds, so its
digits are rounded before they are divided, and the quotient is rounded again. -/
example : ¬ (Number.double ⟨false, 4591870414629438285⟩).ReadsBack := by decide +kernel

end AutomationNet.Json

import AutomationNet.Json.Scan
import AutomationNet.Json.Written

/-!
# Written strings, scanned

* `escapeChar_cases` : how a character is written
* `scanPieces_escapeChar` : a written character is one piece that spells it
* `scanString_written` : **a written string is scanned as that string**
-/

namespace AutomationNet.Json

def controlEscape (code : Nat) : List Char :=
  ['\\', 'u', '0', '0', Nat.digitChar (code / 16), Nat.digitChar (code % 16)]

theorem controlEscape_spec : ∀ code < 0x20,
    (if code < 0x10 then ['\\', 'u', '0', '0', '0'] ++ Nat.toDigits 16 code
      else ['\\', 'u', '0', '0'] ++ Nat.toDigits 16 code) = controlEscape code ∧
    Numeral.hex? ['0', '0', Nat.digitChar (code / 16), Nat.digitChar (code % 16)] = some code := by
  decide +kernel

/-- A character is written after a backslash by its letter, by its code, or as it is. -/
theorem escapeChar_cases (c : Char) :
    (∃ letter, escapeChar c = ['\\', letter] ∧ letter ≠ 'u' ∧ escapeOf? letter = some c) ∨
    (c.toNat < 0x20 ∧ escapeChar c = controlEscape c.toNat) ∨
    (escapeChar c = [c] ∧ c ≠ '"' ∧ c ≠ '\\' ∧ ¬ c.toNat < 0x20) := by
  unfold escapeChar
  split
  · rename_i h
    rcases h with rfl | rfl
    · exact .inl ⟨'"', rfl, by decide, rfl⟩
    · exact .inl ⟨'\\', rfl, by decide, rfl⟩
  · rename_i hplain
    split
    · rename_i h
      exact .inl ⟨'n', rfl, by decide, by rw [h]; rfl⟩
    split
    · rename_i h
      exact .inl ⟨'r', rfl, by decide, by rw [h]; rfl⟩
    split
    · rename_i h
      exact .inl ⟨'t', rfl, by decide, by rw [h]; rfl⟩
    split
    · rename_i h
      exact .inl ⟨'b', rfl, by decide, by rw [h]; rfl⟩
    split
    · rename_i h
      exact .inl ⟨'f', rfl, by decide, by rw [h]; rfl⟩
    by_cases hcontrol : c.toNat < 0x20
    · refine .inr (.inl ⟨hcontrol, ?_⟩)
      rw [← (controlEscape_spec c.toNat hcontrol).1, if_pos hcontrol]
    · refine .inr (.inr ⟨?_, fun h => hplain (.inl h), fun h => hplain (.inr h), hcontrol⟩)
      have hlow : ¬ c.toNat < 0x10 := by omega
      rw [if_neg hlow, if_neg hcontrol]

theorem scanPieces_escapeChar (c : Char) : ∃ piece,
    (∀ rest, scanPieces (escapeChar c ++ rest) =
      (piece :: (scanPieces rest).1, (scanPieces rest).2)) ∧
    ∀ pieces, decodePieces (piece :: pieces) = (decodePieces pieces).map (c :: ·) := by
  rcases escapeChar_cases c with ⟨letter, hwritten, hu, hletter⟩ | ⟨hcode, hwritten⟩ |
    ⟨hwritten, hquote, hback, hcode⟩
  · refine ⟨.char c, fun rest => ?_, fun pieces => rfl⟩
    rw [hwritten, List.cons_append, List.cons_append, List.nil_append, scanPieces]
    · rw [hletter]
    · simp_all
    · simp_all
  · refine ⟨.unit c.toNat, fun rest => ?_, fun pieces => ?_⟩
    · obtain ⟨-, hvalue⟩ := controlEscape_spec c.toNat hcode
      rw [hwritten, controlEscape]
      simp only [List.cons_append, List.nil_append]
      rw [scanPieces, hvalue]
    · have htrailing : isTrailing c.toNat = false := by
        simp [isTrailing]
        omega
      have hleading : isLeading c.toNat = false := by
        simp [isLeading]
        omega
      rw [decodePieces.eq_def]
      simp [htrailing, hleading]
  · refine ⟨.char c, fun rest => ?_, fun pieces => rfl⟩
    rw [hwritten, List.cons_append, List.nil_append, scanPieces.eq_def]
    split <;> simp_all

theorem scanPieces_written (s rest : List Char) : ∃ pieces,
    scanPieces (s.flatMap escapeChar ++ '"' :: rest) = (pieces, .ok rest) ∧
      decodePieces pieces = some s := by
  induction s with
  | nil => exact ⟨[], by simp [scanPieces], rfl⟩
  | cons c s ih =>
    obtain ⟨pieces, hscan, hspells⟩ := ih
    obtain ⟨piece, hpiece, hdecode⟩ := scanPieces_escapeChar c
    refine ⟨piece :: pieces, ?_, ?_⟩
    · rw [List.flatMap_cons, List.append_assoc, hpiece, hscan]
    · rw [hdecode, hspells]
      rfl

/-- **A written string is scanned as that string.** -/
theorem scanString_written (s : String) (rest : List Char) :
    scanString (s.toList.flatMap escapeChar ++ '"' :: rest) = (.string (some s), some rest) := by
  obtain ⟨pieces, hscan, hspells⟩ := scanPieces_written s.toList rest
  rw [scanString, hscan]
  simp only [hspells, Option.map_some, String.ofList_toList]

theorem quoted_append (s : String) (rest : List Char) :
    quoted s ++ rest = '"' :: (s.toList.flatMap escapeChar ++ '"' :: rest) := by
  rw [quoted, List.append_assoc, List.cons_append, List.singleton_append]

end AutomationNet.Json

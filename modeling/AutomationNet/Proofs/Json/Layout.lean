import AutomationNet.Proofs.Json.Number
import AutomationNet.Proofs.Json.Text

/-!
# Written values, scanned

A value that is written over several lines is scanned as that value, if its numbers are read as they
are written.

* `Json.numbers` : the numbers in a value
* `prettyChars_head` : what a written value starts with
* `scanValue_pretty` : **a written value is scanned as its own tree**, whatever ends it
* `scan_pretty` : the same for a whole text
-/

namespace AutomationNet.Json

mutual

def numbers : Json → List Number
  | .null => []
  | .bool _ => []
  | .number n => [n]
  | .string _ => []
  | .array items => itemNumbers items
  | .object members => memberNumbers members

def itemNumbers : List Json → List Number
  | [] => []
  | item :: rest => numbers item ++ itemNumbers rest

def memberNumbers : Members → List Number
  | [] => []
  | (_, value) :: rest => numbers value ++ memberNumbers rest

end

theorem memberNumbers_append (a b : Members) :
    memberNumbers (a ++ b) = memberNumbers a ++ memberNumbers b := by
  induction a with
  | nil => rfl
  | cons member a ih =>
    obtain ⟨key, value⟩ := member
    rw [List.cons_append, memberNumbers, memberNumbers, ih, List.append_assoc]

theorem mem_itemNumbers_map {α : Type} {write : α → Json} {values : List α} {n : Number}
    (h : n ∈ itemNumbers (values.map write)) : ∃ a ∈ values, n ∈ numbers (write a) := by
  induction values with
  | nil => cases h
  | cons a rest ih =>
    rcases List.mem_append.mp h with h | h
    · exact ⟨a, List.mem_cons_self, h⟩
    · obtain ⟨b, hb, hn⟩ := ih h
      exact ⟨b, List.mem_cons_of_mem _ hb, hn⟩

/-! ## Blanks -/

theorem skipSpace_cons {c : Char} (hc : isSpace c = false) (text : List Char) :
    skipSpace (c :: text) = c :: text := by
  rw [skipSpace, List.dropWhile_cons, hc, if_neg (by decide)]

theorem skipSpace_newline (level : Nat) (text : List Char) :
    skipSpace (newline level ++ text) = skipSpace text := by
  have hblank : ∀ c ∈ newline level, isSpace c = true := by
    intro c hc
    rcases List.mem_cons.mp hc with rfl | hc
    · rfl
    · rw [List.eq_of_mem_replicate hc]
      rfl
  exact List.dropWhile_append_of_pos hblank

theorem numberEnds_newline (level : Nat) (text : List Char) :
    NumberEnds (newline level ++ text) := by
  rintro c ⟨⟩
  decide

theorem numberEnds_comma (text : List Char) : NumberEnds (',' :: text) := by
  rintro c ⟨⟩
  decide

theorem scanValue_space (budget : Nat) (text : List Char) :
    scanValue (budget + 1) (' ' :: text) = scanValue (budget + 1) text := by
  rw [scanValue, scanValue]
  rfl

/-! ## The text of a value -/

/-- A character that starts a value: no blank, and no bracket that closes. -/
def StartsValue (c : Char) : Prop := isSpace c = false ∧ c ≠ ']' ∧ c ≠ '\x7d'

theorem startsValue_of_isDigit {c : Char} (h : c.isDigit) : StartsValue c := by
  refine ⟨isSpace_of_isDigit h, ?_, ?_⟩ <;> rintro rfl <;> cases h

theorem written_head (n : Number) : ∃ c text, n.written = c :: text ∧ StartsValue c := by
  have hnumeral : ∀ text, IsNumeral text → ∃ c tail, text = c :: tail ∧ StartsValue c := by
    rintro text ⟨⟨c, hc, hdigit⟩, -⟩
    match text, hc with
    | c :: tail, rfl => exact ⟨c, tail, rfl, startsValue_of_isDigit hdigit⟩
  rcases n.written_cases with ⟨text, htext, hwritten | hwritten⟩ | hwritten
  · rw [hwritten]
    exact hnumeral text htext
  · exact ⟨'-', text, hwritten, by simp [StartsValue, isSpace]⟩
  · exact ⟨'n', _, hwritten, by simp [StartsValue, isSpace]⟩

theorem prettyChars_head (level : Nat) (v : Json) :
    ∃ c text, prettyChars level v = c :: text ∧ StartsValue c := by
  match v with
  | .null => exact ⟨_, _, rfl, by simp [StartsValue, isSpace]⟩
  | .bool true | .bool false => exact ⟨_, _, rfl, by simp [StartsValue, isSpace]⟩
  | .number n =>
    obtain ⟨c, text, hwritten, hc⟩ := written_head n
    exact ⟨c, text, by rw [prettyChars, hwritten], hc⟩
  | .string s => exact ⟨_, _, rfl, by simp [StartsValue, isSpace]⟩
  | .array [] | .array (_ :: _) => exact ⟨_, _, rfl, by simp [StartsValue, isSpace]⟩
  | .object [] | .object (_ :: _) => exact ⟨_, _, rfl, by simp [StartsValue, isSpace]⟩

def itemsChars (level : Nat) : List Json → List Char
  | [] => []
  | item :: rest => prettyChars level item ++ prettyItems level rest

def membersChars (level : Nat) : Members → List Char
  | [] => []
  | (key, value) :: rest =>
    quoted key ++ ':' :: ' ' :: prettyChars level value ++ prettyMembers level rest

theorem prettyItems_cons (level : Nat) (item : Json) (items : List Json) :
    prettyItems level (item :: items) = ',' :: newline level ++ itemsChars level (item :: items) := by
  simp [prettyItems, itemsChars]

theorem prettyMembers_cons (level : Nat) (member : String × Json) (members : Members) :
    prettyMembers level (member :: members) =
      ',' :: newline level ++ membersChars level (member :: members) := by
  simp [prettyMembers, membersChars]

theorem itemsChars_head (level : Nat) (item : Json) (items : List Json) :
    ∃ c text, itemsChars level (item :: items) = c :: text ∧ StartsValue c := by
  obtain ⟨c, text, hitem, hc⟩ := prettyChars_head level item
  exact ⟨c, text ++ prettyItems level items, by rw [itemsChars, hitem, List.cons_append], hc⟩

/-! ## One part more -/

section

variable {budget : Nat} {text rest tail : List Char}

theorem scanItems_last {item : Scan} (hitem : scanValue budget text = (item, some rest))
    (hrest : skipSpace rest = ']' :: tail) :
    scanItems (budget + 1) text = ([item], none, some tail) := by
  rw [scanItems, hitem]
  simp only [hrest]

theorem scanItems_more {item : Scan} {c : Char} (hitem : scanValue budget text = (item, some rest))
    (hrest : skipSpace rest = ',' :: tail) {next : List Char} (hnext : skipSpace tail = c :: next)
    (hc : c ≠ ']') {items : List Scan} {ending : Option Fault} {left : Option (List Char)}
    (hitems : scanItems budget (c :: next) = (items, ending, left)) :
    scanItems (budget + 1) text = (item :: items, ending, left) := by
  rw [scanItems, hitem]
  simp only [hrest, hnext]
  split
  · rename_i heq
    exact absurd (List.cons.inj heq).1 hc
  · rw [hitems]

theorem scanMembers_last {key : String} {value : Scan}
    (hvalue : scanValue budget text = (value, some rest)) (hrest : skipSpace rest = '\x7d' :: tail) :
    scanMembers (budget + 1) (quoted key ++ ':' :: text) =
      ([(.string (some key), value)], none, some tail) := by
  rw [quoted_append, scanMembers, scanString_written]
  simp only [skipSpace_cons (show isSpace ':' = false from rfl), hvalue, hrest]

theorem scanMembers_more {key : String} {value : Scan}
    (hvalue : scanValue budget text = (value, some rest)) (hrest : skipSpace rest = ',' :: tail)
    {members : List (Scan × Scan)} {ending : Option Fault} {left : Option (List Char)}
    (hmembers : scanMembers budget (skipSpace tail) = (members, ending, left)) :
    scanMembers (budget + 1) (quoted key ++ ':' :: text) =
      ((.string (some key), value) :: members, ending, left) := by
  rw [quoted_append, scanMembers, scanString_written]
  simp only [skipSpace_cons (show isSpace ':' = false from rfl), hvalue, hrest, hmembers]

theorem scanValue_array {items : List Scan} {c : Char} {next : List Char}
    (htext : skipSpace text = c :: next) (hc : c ≠ ']')
    (hitems : scanItems budget (c :: next) = (items, none, some rest)) :
    scanValue (budget + 1) ('[' :: text) = (.array items none, some rest) := by
  rw [scanValue, skipSpace_cons (by rfl)]
  simp only [htext]
  split
  · rename_i heq
    exact absurd (List.cons.inj heq).1 hc
  · rw [hitems]
    rfl

theorem scanValue_object {members : List (Scan × Scan)} {next : List Char}
    (htext : skipSpace text = '"' :: next)
    (hmembers : scanMembers budget ('"' :: next) = (members, none, some rest)) :
    scanValue (budget + 1) ('\x7b' :: text) = (.object members none, some rest) := by
  rw [scanValue, skipSpace_cons (by rfl)]
  simp only [htext]
  split
  · rename_i heq
    exact absurd (List.cons.inj heq).1 (by decide)
  · rw [hmembers]
    rfl

end

/-! ## Scanning

The budget goes down with every bracket and with every item or member after the first, and each of
these is at least a character of its own: twice the length is enough for a value, and one more for
the parts of one. -/

mutual

/-- **A written value is scanned as its own tree**, whatever ends it. -/
theorem scanValue_pretty (level : Nat) (v : Json) (hv : ∀ n ∈ v.numbers, n.ReadsBack)
    (budget : Nat) (hbudget : 2 * (prettyChars level v).length ≤ budget) {rest : List Char}
    (hrest : NumberEnds rest) :
    scanValue budget (prettyChars level v ++ rest) = (.ofValue v, some rest) := by
  obtain ⟨budget, rfl⟩ : ∃ b, budget = b + 1 := by
    obtain ⟨c, text, htext, -⟩ := prettyChars_head level v
    rw [htext, List.length_cons] at hbudget
    exact ⟨budget - 1, by omega⟩
  match v with
  | .null => rfl
  | .bool true => rfl
  | .bool false => rfl
  | .number n => exact (hv n (by simp [numbers])).scanValue_append hrest budget
  | .string s =>
    rw [prettyChars, quoted_append]
    exact scanString_written s rest
  | .array [] => rfl
  | .array (item :: items) =>
    obtain ⟨c, text, htext, hspace, hc, -⟩ := itemsChars_head (level + 1) item items
    have hchars : prettyChars level (.array (item :: items)) ++ rest = '[' ::
        (newline (level + 1) ++
          (itemsChars (level + 1) (item :: items) ++ newline level ++ ']' :: rest)) := by
      simp [prettyChars, itemsChars]
    have hitems := scanItems_pretty (level + 1) level (item :: items) hv (by simp) budget
      (by simp [prettyChars, itemsChars] at hbudget ⊢; omega) rest
    rw [hchars]
    rw [htext] at hitems ⊢
    refine scanValue_array ?_ hc hitems
    rw [skipSpace_newline]
    exact skipSpace_cons hspace _
  | .object [] => rfl
  | .object ((key, value) :: members) =>
    have hchars : prettyChars level (.object ((key, value) :: members)) ++ rest = '\x7b' ::
        (newline (level + 1) ++
          (membersChars (level + 1) ((key, value) :: members) ++ newline level ++ '\x7d' :: rest)) := by
      simp [prettyChars, membersChars]
    have hmembers := scanMembers_pretty (level + 1) level ((key, value) :: members) hv (by simp)
      budget (by simp [prettyChars, membersChars] at hbudget ⊢; omega) rest
    have hquote : ∃ next, membersChars (level + 1) ((key, value) :: members) ++ newline level ++
        '\x7d' :: rest = '"' :: next := ⟨_, rfl⟩
    obtain ⟨next, hnext⟩ := hquote
    rw [hchars]
    rw [hnext] at hmembers ⊢
    refine scanValue_object ?_ hmembers
    rw [skipSpace_newline]
    exact skipSpace_cons rfl _

theorem scanItems_pretty (level outer : Nat) (items : List Json)
    (hitems : ∀ n ∈ itemNumbers items, n.ReadsBack) (hne : items ≠ []) (budget : Nat)
    (hbudget : 2 * (itemsChars level items).length + 1 ≤ budget) (rest : List Char) :
    scanItems budget (itemsChars level items ++ newline outer ++ ']' :: rest) =
      (Scan.ofItems items, none, some rest) := by
  obtain ⟨budget, rfl⟩ : ∃ b, budget = b + 1 := ⟨budget - 1, by omega⟩
  match items with
  | [item] =>
    have hitem := scanValue_pretty level item (fun n hn => hitems n (by simp [itemNumbers, hn]))
      budget (by simp [itemsChars, prettyItems] at hbudget; omega)
      (numberEnds_newline outer (']' :: rest))
    have hchars : itemsChars level [item] ++ newline outer ++ ']' :: rest =
        prettyChars level item ++ (newline outer ++ ']' :: rest) := by
      simp [itemsChars, prettyItems]
    rw [hchars]
    exact scanItems_last hitem (by rw [skipSpace_newline]; rfl)
  | item :: next :: items =>
    obtain ⟨c, text, htext, hspace, hc, -⟩ := itemsChars_head level next items
    have hitem := scanValue_pretty level item (fun n hn => hitems n (by simp [itemNumbers, hn]))
      budget (by simp [itemsChars] at hbudget; omega)
      (numberEnds_comma
        (newline level ++ (itemsChars level (next :: items) ++ newline outer ++ ']' :: rest)))
    have hrest := scanItems_pretty level outer (next :: items)
      (fun n hn => hitems n (by rw [itemNumbers]; exact List.mem_append_right _ hn)) (by simp)
      budget (by simp [itemsChars, prettyItems, newline] at hbudget ⊢; omega) rest
    have hchars : itemsChars level (item :: next :: items) ++ newline outer ++ ']' :: rest =
        prettyChars level item ++ ',' ::
          (newline level ++ (itemsChars level (next :: items) ++ newline outer ++ ']' :: rest)) := by
      rw [itemsChars, prettyItems_cons]
      simp
    rw [hchars]
    rw [htext] at hitem hrest ⊢
    refine scanItems_more hitem (by rfl) ?_ hc hrest
    rw [skipSpace_newline]
    exact skipSpace_cons hspace _

theorem scanMembers_pretty (level outer : Nat) (members : Members)
    (hmembers : ∀ n ∈ memberNumbers members, n.ReadsBack) (hne : members ≠ []) (budget : Nat)
    (hbudget : 2 * (membersChars level members).length + 1 ≤ budget) (rest : List Char) :
    scanMembers budget (membersChars level members ++ newline outer ++ '\x7d' :: rest) =
      (Scan.ofMembers members, none, some rest) := by
  obtain ⟨budget, rfl⟩ : ∃ b, budget = b + 1 := ⟨budget - 1, by omega⟩
  obtain ⟨budget, rfl⟩ : ∃ b, budget = b + 1 := by
    match members, hne with
    | (key, value) :: members, _ =>
      simp [membersChars] at hbudget
      exact ⟨budget - 1, by omega⟩
  match members with
  | [(key, value)] =>
    have hvalue := scanValue_pretty level value
      (fun n hn => hmembers n (by simp [memberNumbers, hn]))
      (budget + 1) (by simp [membersChars, prettyMembers] at hbudget; omega)
      (numberEnds_newline outer ('\x7d' :: rest))
    rw [← scanValue_space] at hvalue
    have hchars : membersChars level [(key, value)] ++ newline outer ++ '\x7d' :: rest =
        quoted key ++ ':' :: ' ' ::
          (prettyChars level value ++ (newline outer ++ '\x7d' :: rest)) := by
      simp [membersChars, prettyMembers]
    rw [hchars]
    exact scanMembers_last hvalue (by rw [skipSpace_newline]; rfl)
  | (key, value) :: next :: members =>
    have hvalue := scanValue_pretty level value
      (fun n hn => hmembers n (by simp [memberNumbers, hn]))
      (budget + 1) (by simp [membersChars] at hbudget; omega)
      (numberEnds_comma
        (newline level ++ (membersChars level (next :: members) ++ newline outer ++ '\x7d' :: rest)))
    rw [← scanValue_space] at hvalue
    have hrest := scanMembers_pretty level outer (next :: members)
      (fun n hn => hmembers n (by rw [memberNumbers]; exact List.mem_append_right _ hn)) (by simp)
      (budget + 1) (by simp [membersChars, prettyMembers, newline] at hbudget ⊢; omega) rest
    have hchars : membersChars level ((key, value) :: next :: members) ++ newline outer ++
        '\x7d' :: rest = quoted key ++ ':' :: ' ' :: (prettyChars level value ++ ',' ::
          (newline level ++
            (membersChars level (next :: members) ++ newline outer ++ '\x7d' :: rest))) := by
      rw [membersChars, prettyMembers_cons]
      simp
    rw [hchars]
    refine scanMembers_more hvalue (by rfl) ?_
    rw [skipSpace_newline]
    exact hrest

end

/-- The text of a value is scanned as its tree, and nothing is left. -/
theorem scan_pretty {v : Json} (hv : ∀ n ∈ v.numbers, n.ReadsBack) :
    scan v.pretty.toList = (.ofValue v, some []) := by
  have hend : NumberEnds [] := by rintro c ⟨⟩
  have hscan := scanValue_pretty 0 v hv (2 * (prettyChars 0 v).length + 1) (by omega) hend
  rw [List.append_nil] at hscan
  rw [pretty, String.toList_ofList, scan, hscan]

end AutomationNet.Json

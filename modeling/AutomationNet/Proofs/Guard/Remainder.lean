import AutomationNet.Proofs.Guard.Inversion

/-!
# What a parser leaves

Whether it accepts a text or not, a parser of the guard grammar stops somewhere in it: what it leaves
is the end of the text. So the failure of a guard is told by how much of the text was read.

* `Parser.remainder`, `Parser.Leaves` : what is left of a text, and that it is its end
* `primary_leaves`, `comparison_leaves`, `joined_leaves` : the levels of the grammar
* `expression_leaves` : **the grammar leaves the end of a text**
* `parse_eq_error` : a text that is no guard is cut into what was read and what was not
-/

namespace AutomationNet.Guard

namespace Parser

variable {α β : Type}

/-- What is left of a text after a success or at a failure. -/
def remainder : Except (List Char) (α × List Char) → List Char
  | .ok (_, rest) => rest
  | .error stop => stop

/-- A parser leaves the end of its text. -/
def Leaves (p : Parser α) : Prop := ∀ text, remainder (p text) <:+ text

variable {p q : Parser α} {r : Parser β} {text rest stop : List Char} {a : α}

theorem Leaves.of_ok (h : p.Leaves) (hok : p text = .ok (a, rest)) : rest <:+ text := by
  have hleft := h text
  rwa [hok] at hleft

theorem Leaves.of_error (h : p.Leaves) (herror : p text = .error stop) : stop <:+ text := by
  have hleft := h text
  rwa [herror] at hleft

theorem remainder_bind {x : Except (List Char) (α × List Char)}
    {f : α × List Char → Except (List Char) (β × List Char)} (hx : remainder x <:+ text)
    (hf : ∀ a rest, rest <:+ text → remainder (f (a, rest)) <:+ text) :
    remainder (x >>= f) <:+ text := by
  cases x with
  | ok result => exact hf result.1 result.2 hx
  | error stop => exact hx

theorem Leaves.orElse (hp : p.Leaves) (hq : q.Leaves) : (orElse p q).Leaves := by
  intro text
  rw [Parser.orElse]
  cases hresult : p text with
  | ok result => exact hp.of_ok hresult
  | error stop => exact hq text

theorem Leaves.map (f : α → β) (hp : p.Leaves) : (map f p).Leaves := by
  intro text
  rw [Parser.map]
  cases hresult : p text with
  | ok result => exact hp.of_ok hresult
  | error stop => exact hp.of_error hresult

theorem Leaves.pair (hp : p.Leaves) (hr : r.Leaves) : (pair p r).Leaves := by
  intro text
  rw [Parser.pair]
  cases hresult : p text with
  | ok result =>
    obtain ⟨a, middle⟩ := result
    have hmiddle := hp.of_ok hresult
    dsimp only
    cases hresult' : r middle with
    | ok result => exact (hr.of_ok hresult').trans hmiddle
    | error stop => exact (hr.of_error hresult').trans hmiddle
  | error stop => exact hp.of_error hresult

theorem Leaves.fold (hr : r.Leaves) (f : α → β → α) (count : Nat) (start : α)
    (text : List Char) : (r.fold f count start text).2 <:+ text := by
  induction count generalizing start text with
  | zero => exact List.suffix_refl _
  | succ count ih =>
    rw [Parser.fold]
    cases hresult : r text with
    | ok result => exact (ih _ _).trans (hr.of_ok hresult)
    | error stop => exact List.suffix_refl _

end Parser

/-! ## Words and leaves -/

section
variable {α : Type} {p : Parser α}

theorem skipSpace_suffix (text : List Char) : skipSpace text <:+ text := List.dropWhile_suffix _

theorem Parser.Leaves.spaced (h : p.Leaves) : (spaced p).Leaves := by
  intro text
  rw [Guard.spaced]
  cases hresult : p (skipSpace text) with
  | ok result =>
    exact ((skipSpace_suffix _).trans (h.of_ok hresult)).trans (skipSpace_suffix text)
  | error stop => exact (h.of_error hresult).trans (skipSpace_suffix text)

theorem literal_leaves (w : List Char) : (literal w).Leaves := by
  intro text
  unfold literal
  split
  · exact List.drop_suffix _ _
  · exact List.suffix_refl _

theorem word_leaves : word.Leaves := by
  intro text
  unfold word
  split
  · exact List.suffix_refl _
  · split
    · exact (List.dropWhile_suffix _).trans (List.suffix_cons _ _)
    · exact List.suffix_refl _

theorem keyword_leaves (expected : List Char) : (keyword expected).Leaves := by
  intro text
  unfold keyword
  split
  · rename_i hword
    split
    · exact word_leaves.of_ok hword
    · exact List.suffix_refl _
  · rename_i hword
    exact word_leaves.of_error hword

theorem unsignedParts?_suffix {negative sign : Bool} {text whole fraction rest : List Char}
    (h : unsignedParts? negative text = some (sign, whole, fraction, rest)) : rest <:+ text := by
  unfold unsignedParts? at h
  dsimp only at h
  split at h
  · cases h
  split at h
  · rename_i after hafter
    have hsuffix : '.' :: after <:+ text := hafter ▸ List.dropWhile_suffix _
    split at h
    · cases h
      exact List.dropWhile_suffix _
    · cases h
      exact (List.dropWhile_suffix _).trans ((List.suffix_cons _ _).trans hsuffix)
  · cases h
    exact List.dropWhile_suffix _

theorem numberParts?_suffix {negative : Bool} {text whole fraction rest : List Char}
    (h : numberParts? text = some (negative, whole, fraction, rest)) : rest <:+ text := by
  cases text with
  | nil => cases h
  | cons c cs =>
    by_cases hminus : c = '-'
    · subst hminus
      rw [numberParts?_minus] at h
      exact (unsignedParts?_suffix h).trans (List.suffix_cons _ _)
    · rw [numberParts?_cons hminus] at h
      exact unsignedParts?_suffix h

theorem number_leaves : number.Leaves := by
  intro text
  unfold number
  split
  · exact List.suffix_refl _
  · rename_i hparts
    split
    · exact numberParts?_suffix hparts
    · exact numberParts?_suffix hparts

theorem boolLiteral_leaves : boolLiteral.Leaves :=
  ((keyword_leaves _).map _).orElse ((keyword_leaves _).map _)

theorem quotedBy_leaves (quote : Char) : (quotedBy quote).Leaves := by
  intro text
  unfold quotedBy
  split
  · exact List.suffix_refl _
  · rename_i c rest
    split
    · split
      · rename_i closing after hafter
        have hsuffix : closing :: after <:+ rest := hafter ▸ List.dropWhile_suffix _
        exact (List.suffix_cons _ _).trans (hsuffix.trans (List.suffix_cons _ _))
      · exact List.nil_suffix
    · exact List.suffix_refl _

theorem stringLiteral_leaves : stringLiteral.Leaves :=
  (quotedBy_leaves _).orElse (quotedBy_leaves _)

theorem ident_leaves : ident.Leaves := word_leaves.map _

theorem notMark_leaves : notMark.Leaves := by
  intro text
  unfold notMark
  split
  · exact List.suffix_cons _ _
  · exact List.suffix_cons _ _
  · exact List.suffix_refl _

theorem notOperator_leaves : notOperator.Leaves := by
  rw [notOperator_eq]
  exact (keyword_leaves _).orElse notMark_leaves

theorem comparisonOperator_leaves : comparisonOperator.Leaves := by
  intro text
  unfold comparisonOperator
  split
  · exact List.drop_suffix _ _
  · exact List.suffix_refl _

end

/-! ## The levels of the grammar -/

section
variable {nested : Parser Syntax}

theorem arguments_suffix (h : nested.Leaves) (text : List Char) :
    (arguments nested text).2 <:+ text := by
  unfold arguments
  split
  · exact List.suffix_refl _
  · rename_i first rest hfirst
    have hanother := ((literal_leaves [',']).spaced.pair h).map Prod.snd
    exact (Parser.Leaves.fold hanother _ _ _ _).trans (h.of_ok hfirst)

theorem call_leaves (h : nested.Leaves) : (call nested).Leaves := by
  intro text
  refine Parser.remainder_bind (word_leaves text) fun name opening hopening => ?_
  have hinside := ((literal_leaves ['(']).spaced opening).trans hopening
  refine Parser.remainder_bind hinside fun _ inside hinside => ?_
  have hclosing := (arguments_suffix h inside).trans hinside
  have hafter := ((literal_leaves [')']).spaced (arguments nested inside).2).trans hclosing
  refine Parser.remainder_bind hafter fun _ after hafter => ?_
  exact hafter

theorem parenthesized_leaves (h : nested.Leaves) : (parenthesized nested).Leaves := by
  intro text
  refine Parser.remainder_bind (literal_leaves _ text) fun _ inside hinside => ?_
  refine Parser.remainder_bind ((h inside).trans hinside) fun tree closing hclosing => ?_
  refine Parser.remainder_bind ((literal_leaves _ closing).trans hclosing) fun _ after hafter => ?_
  exact hafter

theorem primary_leaves (h : nested.Leaves) : (primary nested).Leaves :=
  (number_leaves.orElse (boolLiteral_leaves.orElse (stringLiteral_leaves.orElse
    ((call_leaves h).orElse (ident_leaves.orElse (parenthesized_leaves h)))))).spaced

theorem unary_leaves (h : nested.Leaves) (count : Nat) : (unary nested count).Leaves := by
  induction count with
  | zero => exact primary_leaves h
  | succ count ih =>
    rw [unary]
    exact ((notOperator_leaves.spaced.pair ih).map _).orElse (primary_leaves h)

theorem comparison_leaves (h : nested.Leaves) : (comparison nested).Leaves := by
  have hoperand : Parser.Leaves fun text => unary nested text.length text :=
    fun text => unary_leaves h text.length text
  intro text
  unfold comparison
  dsimp only
  split
  · rename_i hleft
    exact hoperand.of_error hleft
  · rename_i left rest hleft
    have hrest : rest <:+ text := hoperand.of_ok hleft
    split
    · rename_i hright
      exact ((comparisonOperator_leaves.spaced.pair hoperand).of_ok hright).trans hrest
    · exact hrest

theorem joined_leaves {connective : Parser Unit} {operand : Parser Syntax}
    {join : Syntax → Syntax → Syntax} (hconnective : connective.Leaves)
    (hoperand : operand.Leaves) :
    (joined connective join operand).Leaves := by
  intro text
  unfold joined
  split
  · rename_i hfirst
    exact hoperand.of_error hfirst
  · rename_i first rest hfirst
    exact (Parser.Leaves.fold ((hconnective.spaced.pair hoperand).map _) _ _ _ _).trans
      (hoperand.of_ok hfirst)

theorem disjunction_leaves (h : nested.Leaves) : (disjunction nested).Leaves :=
  joined_leaves ((literal_leaves _).orElse (keyword_leaves _))
    (joined_leaves ((literal_leaves _).orElse (keyword_leaves _)) (comparison_leaves h))

end

/-- **The grammar leaves the end of a text**, however deep it nests. -/
theorem expression_leaves (depth : Nat) : (expression depth).Leaves := by
  induction depth with
  | zero => exact fun text => List.suffix_refl text
  | succ depth ih => exact disjunction_leaves ih

/-! ## Whole texts -/

theorem byteLength_cons (c : Char) (text : List Char) :
    byteLength (c :: text) = c.utf8Size + byteLength text := rfl

theorem byteLength_append (left right : List Char) :
    byteLength (left ++ right) = byteLength left + byteLength right := by
  induction left with
  | nil => exact (Nat.zero_add _).symm
  | cons c left ih =>
    rw [List.cons_append, byteLength_cons, byteLength_cons, ih, Nat.add_assoc]

theorem parseChars_suffix {text rest : List Char} (h : parseChars text = .error rest) :
    rest <:+ text := by
  have hleaves := (expression_leaves (text.length + 1)).spaced
  unfold parseChars at h
  split at h
  · cases h
  · rename_i hresult
    cases h
    exact hleaves.of_ok hresult
  · rename_i hresult
    cases h
    exact hleaves.of_error hresult

/-- A text that is no guard is cut into what was read and what was not. -/
theorem parse_eq_error {text : String} {failure : ParseFailure} (h : parse text = .error failure) :
    ∃ read rest, text.toList = read ++ rest ∧ failure = ⟨byteLength read, String.ofList rest⟩ := by
  unfold parse at h
  cases hparse : parseChars text.toList with
  | ok tree =>
    rw [hparse] at h
    cases h
  | error rest =>
    obtain ⟨read, hread⟩ := parseChars_suffix hparse
    rw [hparse] at h
    cases h
    have hoffset : byteLength text.toList - byteLength rest = byteLength read := by
      rw [← hread, byteLength_append, Nat.add_sub_cancel]
    exact ⟨read, rest, hread.symm, by rw [← hoffset]⟩

end AutomationNet.Guard

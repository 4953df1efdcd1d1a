import AutomationNet.Proofs.Guard.Checking
import AutomationNet.Proofs.Guard.Entity
import AutomationNet.Proofs.Guard.Remainder

/-!
# The column of a syntax error

A guard is parsed after its entities have been decoded, and an error quotes it as it was before. The
column is that of the decoded text, so it points to the fault in the quoted text only if no entity
stands before the fault.

* `Entity.byteLength_decodeChars_le`, `Entity.decodeChars_eq_self_iff` : an entity shortens its text,
  nothing else does
* `PointsTo` : where a quoted text decodes to what was not read
* `pointsTo_iff` : of the lengths of what was read only the right one points there
* `compile_column` : **the column points to the fault exactly where no entity stands before it**
-/

namespace AutomationNet

open Guard (byteLength byteLength_cons byteLength_append)

namespace Entity

variable {text : List Char}

theorem byteLength_lt_entity {entry : List Char × Char} (h : entry ∈ table) :
    entry.2.utf8Size < byteLength entry.1 := by
  simp only [table, List.mem_cons, List.not_mem_nil, or_false] at h
  rcases h with rfl | rfl | rfl | rfl | rfl
  all_goals decide

/-- Decoding makes no text longer. -/
theorem byteLength_decodeChars_le (text : List Char) :
    byteLength (decodeChars text) ≤ byteLength text := by
  induction text using Entity.induction with
  | nil => exact Nat.le_refl _
  | entity entry hentry rest ih =>
    have hshorter := byteLength_lt_entity hentry
    rw [decodeChars_entity hentry, byteLength_cons, byteLength_append]
    omega
  | char c rest hbare ih =>
    rw [decodeChars_cons hbare, byteLength_cons, byteLength_cons]
    omega

/-- Only a text that decodes to itself keeps its length. -/
theorem decodeChars_eq_self_of_byteLength (h : byteLength text ≤ byteLength (decodeChars text)) :
    decodeChars text = text := by
  induction text using Entity.induction with
  | nil => rfl
  | entity entry hentry rest ih =>
    have hshorter := byteLength_lt_entity hentry
    have hrest := byteLength_decodeChars_le rest
    rw [decodeChars_entity hentry, byteLength_cons, byteLength_append] at h
    omega
  | char c rest hbare ih =>
    rw [decodeChars_cons hbare, byteLength_cons, byteLength_cons] at h
    rw [decodeChars_cons hbare, ih (by omega)]

/-- A text decodes to itself if there is no entity in it. -/
theorem decodeChars_eq_self_iff :
    decodeChars text = text ↔ ∀ entry ∈ table, ¬ entry.1 <:+: text := by
  induction text using Entity.induction with
  | nil =>
    refine iff_of_true rfl fun entry hentry hinfix => ?_
    obtain ⟨name, hname, -⟩ := table_form hentry
    exact List.cons_ne_nil _ _ (hname.symm.trans (List.infix_nil.mp hinfix))
  | entity entry hentry rest ih =>
    refine iff_of_false (fun heq => ?_) fun hnone => ?_
    · have hshorter := byteLength_lt_entity hentry
      have hrest := byteLength_decodeChars_le rest
      have hlength := congrArg byteLength heq
      rw [decodeChars_entity hentry, byteLength_cons, byteLength_append] at hlength
      omega
    · exact hnone entry hentry (List.prefix_append _ _).isInfix
  | char c rest hbare ih =>
    rw [decodeChars_cons hbare, List.cons_inj_right, ih]
    refine forall₂_congr fun entry hentry => ?_
    rw [List.infix_cons_iff, or_iff_right (hbare entry hentry)]

end Entity

namespace Guard

open Entity (decodeChars)

/-- The byte column of a text, counted from one, begins a character or ends the text, and from there
on the text decodes to the given rest. -/
def PointsTo (guard : String) (column : Nat) (rest : String) : Prop :=
  ∃ before after, guard.toList = before ++ after ∧ column = byteLength before + 1 ∧
    Entity.decode (String.ofList after) = rest

variable {guard : String} {before after : List Char}

theorem pointsTo_iff_take {column : Nat} {rest : String} :
    PointsTo guard column rest ↔ ∃ n < guard.toList.length + 1,
      column = byteLength (guard.toList.take n) + 1 ∧
        Entity.decode (String.ofList (guard.toList.drop n)) = rest := by
  constructor
  · rintro ⟨before, after, hguard, hcolumn, hrest⟩
    refine ⟨before.length, ?_, ?_⟩
    · rw [hguard, List.length_append]
      omega
    · rw [hguard, List.take_left, List.drop_left]
      exact ⟨hcolumn, hrest⟩
  · rintro ⟨n, -, hcolumn, hrest⟩
    exact ⟨_, _, (List.take_append_drop n _).symm, hcolumn, hrest⟩

instance (guard : String) (column : Nat) (rest : String) : Decidable (PointsTo guard column rest) :=
  decidable_of_iff' _ pointsTo_iff_take

/-- What was read is as long as what it decodes to only if there is no entity in it, and no shorter
part of the text leaves the same rest. -/
theorem pointsTo_iff (hguard : guard.toList = before ++ after) (hcut : Entity.Cut before after) :
    PointsTo guard (byteLength (decodeChars before) + 1) (String.ofList (decodeChars after)) ↔
      ∀ entry ∈ Entity.table, ¬ entry.1 <:+: before := by
  rw [← Entity.decodeChars_eq_self_iff]
  constructor
  · rintro ⟨before', after', hguard', hcolumn, hrest⟩
    rw [Entity.decode, String.toList_ofList, String.ofList_inj] at hrest
    have hlength : byteLength (decodeChars before) = byteLength before' := Nat.succ.inj hcolumn
    refine Entity.decodeChars_eq_self_of_byteLength (Nat.le_of_eq ?_)
    rcases List.append_eq_append_iff.mp (hguard'.symm.trans hguard) with
      ⟨part, rfl, rfl⟩ | ⟨more, rfl, -⟩
    · -- what stands between the two places would be decoded before the rest
      rw [hcut part (List.suffix_append _ _), List.append_left_eq_self,
        Entity.decodeChars_eq_nil_iff] at hrest
      rw [hlength, hrest, List.append_nil]
    · have hle := Entity.byteLength_decodeChars_le before
      rw [hlength, byteLength_append] at hle ⊢
      omega
  · intro hself
    refine ⟨before, after, hguard, by rw [hself], ?_⟩
    rw [Entity.decode, String.toList_ofList]

/-- The column behind what was read of the quoted text points to the rest. -/
theorem pointsTo_read (hguard : guard.toList = before ++ after) :
    PointsTo guard (byteLength before + 1) (String.ofList (decodeChars after)) :=
  ⟨before, after, hguard, rfl, by rw [Entity.decode, String.toList_ofList]⟩

/-- Whether a text fails to parse in a given way can be computed without comparing trees. -/
instance (text : String) (failure : ParseFailure) : Decidable (parse text = .error failure) :=
  decidable_of_iff ((parse text).map (fun _ => ()) = .error failure) <| by
    cases parse text <;> simp [Except.map]

variable {inputs : List String} {source : Option String} {column : Nat}

theorem compile_eq_ungrammatical
    (h : compile inputs source = .error (.ungrammatical guard column)) :
    source = some guard ∧
      ∃ failure, parse (Entity.decode guard) = .error failure ∧ column = failure.offset + 1 := by
  unfold compile at h
  split at h
  · cases h
  · rename_i text htext
    have hsource : source = some text := (Option.filter_eq_some_iff.mp htext).1
    rcases bind_eq_error h with hparse | ⟨tree, -, h⟩
    · obtain ⟨failure, hfailure, heq⟩ := mapError_eq_error hparse
      cases heq
      exact ⟨hsource, failure, hfailure, rfl⟩
    rcases bind_eq_error h with hresolve | ⟨expr, -, h⟩
    · exact absurd (resolve_eq_error_iff.mp hresolve) FirstFault.ne_ungrammatical
    · cases h

/-- **The column of a syntax error** is that of the fault in the decoded text. It lies in the quoted
text, but points to the fault there exactly if no entity stands before it: the right column lies
behind all that was read as it is quoted. -/
theorem compile_column (h : compile inputs source = .error (.ungrammatical guard column)) :
    ∃ before after, source = some guard ∧ guard.toList = before ++ after ∧
      parse (Entity.decode guard) =
        .error ⟨byteLength (decodeChars before), String.ofList (decodeChars after)⟩ ∧
      column = byteLength (decodeChars before) + 1 ∧ column ≤ byteLength guard.toList + 1 ∧
      PointsTo guard (byteLength before + 1) (String.ofList (decodeChars after)) ∧
      (PointsTo guard column (String.ofList (decodeChars after)) ↔
        ∀ entry ∈ Entity.table, ¬ entry.1 <:+: before) := by
  obtain ⟨hsource, failure, hparse, rfl⟩ := compile_eq_ungrammatical h
  obtain ⟨read, rest, hdecoded, rfl⟩ := parse_eq_error hparse
  rw [Entity.decode, String.toList_ofList] at hdecoded
  obtain ⟨before, after, hguard, hcut, rfl, rfl⟩ := Entity.exists_cut hdecoded
  refine ⟨before, after, hsource, hguard, hparse, rfl, ?_, pointsTo_read hguard,
    pointsTo_iff hguard hcut⟩
  have hle := Entity.byteLength_decodeChars_le before
  rw [hguard, byteLength_append]
  dsimp only
  omega

theorem door_column :
    compile ["door", "open"] (some "door) &amp;&amp; open") =
        .error (.ungrammatical "door) &amp;&amp; open" 5) ∧
      PointsTo "door) &amp;&amp; open" 5 ") && open" := by
  have herror : compile ["door", "open"] (some "door) &amp;&amp; open") =
      .error (.ungrammatical "door) &amp;&amp; open" 5) := by decide +kernel
  obtain ⟨before, after, -, hguard, hparse, hcolumn, -, -, hpoints⟩ := compile_column herror
  have hrest : parse (Entity.decode "door) &amp;&amp; open") = .error ⟨4, ") && open"⟩ := by
    decide +kernel
  rw [hrest] at hparse
  have hafter : ") && open" = String.ofList (decodeChars after) :=
    congrArg ParseFailure.rest (Except.error.inj hparse)
  -- of the beginnings of the guard only one is four bytes long when it is decoded
  have hread : ∀ n < 22, 5 = byteLength (decodeChars ("door) &amp;&amp; open".toList.take n)) + 1 →
      ∀ entry ∈ Entity.table, ¬ entry.1 <:+: "door) &amp;&amp; open".toList.take n := by decide
  have hlength := congrArg List.length hguard
  rw [List.length_append] at hlength
  have htake : "door) &amp;&amp; open".toList.take before.length = before := by
    rw [hguard, List.take_left]
  refine ⟨herror, hafter ▸ hpoints.mpr ?_⟩
  rw [← htake] at hcolumn ⊢
  exact hread before.length (Nat.lt_succ_of_le (Nat.le.intro hlength.symm)) hcolumn

/-- A comparison is written with an entity, and the column of the parenthesis after it is three
bytes short. -/
theorem threshold_column :
    compile ["level", "limit"] (some "level &gt; limit )") =
        .error (.ungrammatical "level &gt; limit )" 15) ∧
      parse (Entity.decode "level &gt; limit )") = .error ⟨14, ")"⟩ ∧
      ¬ PointsTo "level &gt; limit )" 15 ")" ∧ PointsTo "level &gt; limit )" 18 ")" := by
  decide +kernel

/- The column can even lie inside a character. -/
example : compile ["a"] (some "a&gt;'ééé' )") = .error (.ungrammatical "a&gt;'ééé' )" 12) ∧
    ∀ before ∈ "a&gt;'ééé' )".toList.inits, byteLength before + 1 ≠ 12 := by
  decide +kernel

end Guard

end AutomationNet

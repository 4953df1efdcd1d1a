import AutomationNet.Proofs.Net.Validity
import AutomationNet.Proofs.Simulation.Reachable

/-!
# Adding a token

A token is added by overriding the mark of its place. An override takes a signed 64-bit number, but a
place counts up to an unsigned one, and firings fill it as far as that. Below the greatest signed
number a token is added; at that mark none is, and from any greater one tokens are taken away.

* `LiveNet.setMark_natCast` : an override by a mark that is not negative
* `Session.addToken_of_placeRef?` : adding a token to a place that is there
* `Session.TokenAdded` : all that is different after it
* `Session.addToken_spec` : **when a token is refused, and what is left when it is not**
-/

namespace AutomationNet

theorem LiveNet.setMark_natCast {live : LiveNet} {id : ElementId} {r : Ref Place}
    (hr : live.net.placeRef? id = some r) (mark : Nat) :
    live.setMark id mark =
      if mark ≤ (live.net.place r).type.capacity then
        .ok { live with marking := live.marking.set r mark }
      else .error (.boolOverflow id mark) := by
  rw [setMark, hr]
  by_cases hle : mark ≤ (live.net.place r).type.capacity
  · simp [hle, Nat.not_lt.mpr hle]
  · simp [hle, Nat.not_le.mp hle]

namespace Session

variable {s s' : Session} {net : Net} {r : Ref Place} {id : ElementId}

/-! ## One place -/

def withToken (mark : Nat) : Nat := min (mark + 1) (2 ^ 63 - 1)

theorem natCast_withToken (mark : Nat) :
    ((withToken mark : Nat) : Int) = min ((mark : Int) + 1) Numeral.maxInt64 := by
  rw [withToken, Numeral.maxInt64]
  omega

/-- Only a flag that is set cannot take another token. -/
theorem withToken_le_capacity_iff {type : DataType} {mark : Nat} (hmark : mark ≤ type.capacity) :
    withToken mark ≤ type.capacity ↔ ¬ (type = .bool ∧ mark = 1) := by
  cases type with
  | int =>
    have hle : withToken mark ≤ DataType.int.capacity :=
      Nat.le_trans (Nat.min_le_right _ _) (by decide)
    simp [hle]
  | bool =>
    simp only [DataType.capacity, withToken, true_and] at hmark ⊢
    omega

theorem addToken_of_placeRef? (hr : s.live.net.placeRef? id = some r) :
    s.addToken id =
      if withToken (s.live.marking.mark r) ≤ (s.live.net.place r).type.capacity then
        .ok { s with live :=
          { s.live with marking := s.live.marking.set r (withToken (s.live.marking.mark r)) } }
      else .error (.boolOverflow id (withToken (s.live.marking.mark r))) := by
  have hmark : s.mark? id = some (s.live.marking.mark r) := by
    rw [mark?, LiveNet.mark?, hr, Option.map_some]
  rw [addToken, hmark]
  simp only [← natCast_withToken]
  rw [setMark, LiveNet.setMark_natCast hr]
  by_cases hle : withToken (s.live.marking.mark r) ≤ (s.live.net.place r).type.capacity
  · rw [if_pos hle, if_pos hle]
    rfl
  · rw [if_neg hle, if_neg hle]
    rfl

theorem addToken_of_none (hid : s.live.net.placeRef? id = none) :
    s.addToken id = .error (.unknownPlace id) := by
  have hmark : s.mark? id = none := by
    rw [mark?, LiveNet.mark?, hid, Option.map_none]
  rw [addToken, hmark]

/-- All that is different after a token has been added to a place. -/
structure TokenAdded (s s' : Session) (r : Ref Place) : Prop where
  /-- One token more, but no more than the greatest signed number. -/
  mark_self : s'.live.marking.mark r = min (s.live.marking.mark r + 1) (2 ^ 63 - 1)
  mark_other : ∀ q, q ≠ r → s'.live.marking.mark q = s.live.marking.mark q
  session_eq : s' = { s with live := { s.live with marking := s'.live.marking } }

namespace TokenAdded

theorem of_set (hr : r.index < s.live.marking.size) :
    TokenAdded s { s with live :=
      { s.live with marking := s.live.marking.set r (withToken (s.live.marking.mark r)) } } r where
  mark_self := by
    rw [Marking.mark_set, if_pos ⟨rfl, hr⟩, withToken]
  mark_other q hq := by
    rw [Marking.mark_set, if_neg fun h => hq h.1.symm]
  session_eq := rfl

/-- There is one token more, or the place was full, exactly below the greatest signed number. -/
theorem added_iff (h : TokenAdded s s' r) :
    s'.live.marking.mark r = s.live.marking.mark r + 1 ∨
        s.live.marking.mark r = 2 ^ 64 - 1 ∧ s'.live.marking.mark r = s.live.marking.mark r ↔
      s.live.marking.mark r < 2 ^ 63 - 1 := by
  have hmark := h.mark_self
  omega

/-- There are fewer tokens exactly above the greatest signed number. -/
theorem lost_iff (h : TokenAdded s s' r) :
    s'.live.marking.mark r < s.live.marking.mark r ↔ 2 ^ 63 ≤ s.live.marking.mark r := by
  have hmark := h.mark_self
  omega

end TokenAdded

/-! ## All places -/

/-- The session after an attempt to add a token, which is the one before if it is refused. -/
def afterToken (s : Session) (id : ElementId) : Session := (s.addToken id).toOption.getD s

/-- A token is refused at a place that is unknown or is a flag that is set; else it is added. -/
theorem Consistent.addToken_cases (h : s.Consistent) (hnet : s.live.net.Sound) (id : ElementId) :
    ((∀ place ∈ s.live.net.places.toList, place.id ≠ id) ∧
        s.addToken id = .error (.unknownPlace id)) ∨
      ∃ r place, s.live.net.places.get? r = some place ∧ place.id = id ∧
        ((place.type = .bool ∧ s.live.marking.mark r = 1) ∧
            s.addToken id = .error (.boolOverflow id 2) ∨
          ¬ (place.type = .bool ∧ s.live.marking.mark r = 1) ∧
            ∃ s', s.addToken id = .ok s' ∧ TokenAdded s s' r) := by
  cases hid : s.live.net.placeRef? id with
  | none =>
    exact .inl ⟨fun _ hplace => hnet.placeKeys_inverts.ne_of_get?_eq_none hid hplace,
      addToken_of_none hid⟩
  | some r =>
    obtain ⟨place, hplace, heq⟩ := (hnet.placeKeys_inverts id r).mp hid
    have hadd := addToken_of_placeRef? hid
    have hmark := h.live.mark_le r
    rw [Net.place_of_get? hplace] at hadd hmark
    have hfull := withToken_le_capacity_iff hmark
    refine .inr ⟨r, place, hplace, heq, ?_⟩
    by_cases hset : place.type = .bool ∧ s.live.marking.mark r = 1
    · rw [if_neg fun hle => hfull.mp hle hset, hset.2] at hadd
      exact .inl ⟨hset, hadd⟩
    · have hr : r.index < s.live.marking.size := by
        rw [h.live.marking_size]
        exact (List.getElem?_eq_some_iff.mp hplace).1
      rw [if_pos (hfull.mpr hset)] at hadd
      exact .inr ⟨hset, _, hadd, .of_set hr⟩

/-! ### A hopper with more than a signed number of parts -/

def hopper : NetDescription where
  places := [⟨"P1", "parts", .int, "9223372036854775807", []⟩]
  transitions := [{ id := "T1", name := "feed" }]
  arcs := [⟨"A1", "P1", "T1", .output, "1", []⟩]

def hopperNet : Net where
  places := ⟨[⟨"P1", "parts", .int, 2 ^ 63 - 1⟩]⟩
  transitions := ⟨[⟨"T1", "feed", {}, 0, .zero⟩]⟩
  arcs := ⟨[⟨"A1", ⟨0⟩, ⟨0⟩, .output, 1⟩]⟩
  attachments := ⟨[{ outputs := [⟨0⟩] }]⟩
  placeKeys := ⟨[("P1", ⟨0⟩)]⟩
  transitionKeys := ⟨[("T1", ⟨0⟩)]⟩
  order := [⟨0⟩]

def hopperFed : Session where
  live := ⟨hopperNet, ⟨[2 ^ 63]⟩, ⟨[⟨0, true, true⟩]⟩⟩
  policy := .automation
  history := []
  step := 10000000
  tick := 1
  time := 10000000

theorem hopper_assembled : Net.assemble hopper = .ok hopperNet :=
  Net.assemble_eq_ok (by decide +kernel) (by decide +kernel)

theorem hopperFed_reachable : Reachable hopperNet hopperFed := by
  have hrun : (Session.start hopperNet .automation [] 10000000).runTick hopperNet.order [] =
      .ok ⟨hopperFed, Session.report hopperFed.live ⟨[2 ^ 63 - 1]⟩ [⟨"T1", [], ["A1"]⟩] 1 10000000,
        [.fire "T1", .tick 1], []⟩ := by
    decide +kernel
  exact (Reachable.start .automation [] 10000000).tick (.refl _) hrun

/-- Not every token that is added is one more: the hopper loses a part. -/
theorem hopper_token_lost :
    ¬ ∀ (description : NetDescription) (net : Net) (s s' : Session),
      Net.assemble description = .ok net → Reachable net s →
      ∀ r place, net.places.get? r = some place → s.addToken place.id = .ok s' →
        s'.live.marking.mark r = s.live.marking.mark r + 1 ∨
          s.live.marking.mark r = 2 ^ 64 - 1 ∧
            s'.live.marking.mark r = s.live.marking.mark r := by
  intro h
  have hadd : hopperFed.addToken "P1" =
      .ok { hopperFed with live := { hopperFed.live with marking := ⟨[2 ^ 63 - 1]⟩ } } := by
    decide +kernel
  have hmark := h hopper hopperNet hopperFed _ hopper_assembled hopperFed_reachable ⟨0⟩ _ rfl hadd
  exact absurd hmark (by decide)

/-! ### Result -/

/-- **When a token is refused, and what is left when it is not.** Exactly an unknown place and a
flag that is set refuse one, and then nothing changes. Else there is one token more, but no more
than the greatest signed number, so that tokens are lost if there were more before. -/
theorem addToken_spec {description : NetDescription} (hnet : Net.assemble description = .ok net)
    (h : Reachable net s) (id : ElementId) :
    ((∃ e, s.addToken id = .error e) ↔ (∀ place ∈ net.places.toList, place.id ≠ id) ∨
      ∃ r place, net.places.get? r = some place ∧ place.id = id ∧ place.type = .bool ∧
        s.live.marking.mark r = 1) ∧
    (∀ e, s.addToken id = .error e → s.afterToken id = s) ∧
    ∀ s', s.addToken id = .ok s' → s.afterToken id = s' ∧
      ∃ r place, net.places.get? r = some place ∧ place.id = id ∧ TokenAdded s s' r ∧
        (s'.live.marking.mark r = s.live.marking.mark r + 1 ∨
            s.live.marking.mark r = 2 ^ 64 - 1 ∧ s'.live.marking.mark r = s.live.marking.mark r ↔
          s.live.marking.mark r < 2 ^ 63 - 1) ∧
        (s'.live.marking.mark r < s.live.marking.mark r ↔ 2 ^ 63 ≤ s.live.marking.mark r) := by
  have hsound := Net.assemble_sound hnet
  obtain ⟨rfl, hs⟩ := h.consistent hsound
  refine ⟨?_, fun e he => ?_, fun s' hs' => ⟨?_, ?_⟩⟩
  · rcases hs.addToken_cases hsound id with
      ⟨hunknown, he⟩ | ⟨r, place, hplace, hid, ⟨hset, he⟩ | ⟨hset, s', hok, -⟩⟩
    · exact iff_of_true ⟨_, he⟩ (.inl hunknown)
    · exact iff_of_true ⟨_, he⟩ (.inr ⟨r, place, hplace, hid, hset⟩)
    · refine iff_of_false ?_ ?_
      · rintro ⟨e, he⟩
        cases hok.symm.trans he
      · rintro (hunknown | ⟨r', place', hplace', hid', hset'⟩)
        · exact hunknown place (List.mem_of_getElem? hplace) hid
        · have hr := (hsound.placeKeys_inverts id r).mpr ⟨place, hplace, hid⟩
          have hr' := (hsound.placeKeys_inverts id r').mpr ⟨place', hplace', hid'⟩
          cases hr.symm.trans hr'
          cases hplace.symm.trans hplace'
          exact hset hset'
  · rw [afterToken, he]
    rfl
  · rw [afterToken, hs']
    rfl
  · rcases hs.addToken_cases hsound id with
      ⟨-, he⟩ | ⟨r, place, hplace, hid, ⟨-, he⟩ | ⟨-, s'', hok, hadded⟩⟩
    · cases hs'.symm.trans he
    · cases hs'.symm.trans he
    · cases hs'.symm.trans hok
      exact ⟨r, place, hplace, hid, hadded, hadded.added_iff, hadded.lost_iff⟩

theorem hopper_afterToken :
    (hopperFed.live.marking.mark ⟨0⟩ = 2 ^ 63 ∧
      (hopperFed.afterToken "P1").live.marking.mark ⟨0⟩ = 2 ^ 63 - 1) ∧
    hopperFed.afterToken "P2" = hopperFed := by
  obtain ⟨-, -, hok⟩ := addToken_spec hopper_assembled hopperFed_reachable "P1"
  obtain ⟨-, hrefused, -⟩ := addToken_spec hopper_assembled hopperFed_reachable "P2"
  have hadd : hopperFed.addToken "P1" =
      .ok { hopperFed with live := { hopperFed.live with marking := ⟨[2 ^ 63 - 1]⟩ } } := by
    decide +kernel
  obtain ⟨hafter, -⟩ := hok _ hadd
  refine ⟨⟨rfl, ?_⟩, hrefused (.unknownPlace "P2") (by decide +kernel)⟩
  rw [hafter]
  rfl

end Session

end AutomationNet

import BlockAccess.Site
import BlockAccess.Source.Scripted
import BlockAccess.Stream.Positioned

/-!
# Sources whose readers are independent

The readers of a source share their surroundings, so one reader may get in the way of another, or of
one that is made later.  `Source.Independent` says that nothing of the kind happens: there is an
ideal source that has no surroundings at all, each reader conducts itself like one of the ideal
source, and whatever is done with one of them leaves the others as they are.  What a reader hands
out then depends on its range and on what was asked of it, and on nothing else.

Pulling and gathering from such a reader give what they give from the ideal one.  A scripted source
that has the same script for all readers is independent.
-/

namespace BlockAccess

/-- Nothing is kept of a notice where there is nothing to keep it in. -/
instance : Journaled Unit := ⟨fun _ w => w⟩

/-- Two readers hand out the same, as far as the bytes of packets go. -/
inductive SameBytes : Except Failure (Option Packet) → Except Failure (Option Packet) → Prop
  | failed (f : Failure) : SameBytes (.error f) (.error f)
  | nothing : SameBytes (.ok none) (.ok none)
  | packet {p q : Packet} (h : q.unread = p.unread) : SameBytes (.ok (some p)) (.ok (some q))

/-- The readers of a source have nothing to do with each other. -/
structure Source.Independent {W R : Type} [Journaled W] (src : Source W R) where
  /-- What a reader of the ideal source is. -/
  Conduct : Type
  ideal : Source Unit Conduct
  /-- In these surroundings these readers are in use, each with its conduct, the latest first. -/
  Live : List (R × Conduct) → W → Prop
  live_note : ∀ {l w} (n : Notice), Live l w → Live l (note n w)
  live_release : ∀ {l w} (p : Packet), Live l w → Live l (src.release p w)
  create : ∀ {l w} (offset length : UInt64), Live l w →
    (∃ f w', src.create offset length w = (.error f, w') ∧
      ideal.create offset length () = (.error f, ()) ∧ Live l w') ∨
    ∃ r b w', src.create offset length w = (.ok r, w') ∧
      ideal.create offset length () = (.ok b, ()) ∧ Live ((r, b) :: l) w'
  next : ∀ {l r b w}, Live ((r, b) :: l) w → ∃ x y r' b' w', src.next r w = (x, r', w') ∧
    ideal.next b () = (y, b', ()) ∧ SameBytes x y ∧ Live ((r', b') :: l) w'
  close : ∀ {l r b w}, Live ((r, b) :: l) w → ∃ x r' b' w', src.close r w = (x, r', w') ∧
    ideal.close b () = (x, b', ()) ∧ Live l w'
  shutDown : ∀ {w}, Live [] w → ∃ x w', src.shutDown w = (x, w') ∧
    ideal.shutDown () = (x, ()) ∧ Live [] w'

/-- What is taken of a packet depends on the bytes in it. -/
theorem Packet.take_of_unread {p q : Packet} (h : q.unread = p.unread) (n : UInt64) :
    q.take n = ((p.take n).1, { q with unread := (p.take n).2.unread }) := by
  unfold take holds readable
  rw [h]
  split
  · rfl
  · dsimp only
    rw [← h]

namespace Source.Independent

variable {W R : Type} [Journaled W] {src : Source W R} (i : src.Independent) {r : R}
  {b : i.Conduct} {l : List (R × i.Conduct)} {w : W}

theorem pull (block : UInt64) (budget : Nat) (h : i.Live ((r, b) :: l) w) : ∃ x y r' b' w',
    src.pull block budget r w = (x, r', w') ∧ i.ideal.pull block budget b () = (y, b', ()) ∧
      SameBytes x y ∧ i.Live ((r', b') :: l) w' := by
  induction budget generalizing r b w with
  | zero => exact ⟨_, _, r, b, w, rfl, rfl, .failed _, h⟩
  | succ budget ih =>
    obtain ⟨x, y, r', b', w', hr, hb, hsame, h'⟩ := i.next h
    unfold Source.pull
    rw [hr, hb]
    cases hsame with
    | failed f => exact ⟨_, _, r', b', w', rfl, rfl, .failed f, h'⟩
    | nothing => exact ⟨_, _, r', b', w', rfl, rfl, .nothing, h'⟩
    | @packet p q hpq =>
      dsimp only
      rw [hpq]
      by_cases hempty : p.unread.isEmpty = true
      · rw [if_pos hempty, if_pos hempty]
        exact ih (i.live_release p (i.live_note _ h'))
      · rw [if_neg hempty, if_neg hempty]
        exact ⟨_, _, r', b', w', rfl, rfl, .packet hpq, h'⟩

theorem gather (block : UInt64) (wanted budget : Nat) (got : List Bytes) {r : R} {b : i.Conduct}
    {w : W} (h : i.Live ((r, b) :: l) w) : ∃ x got' r' b' w',
    src.gather block wanted budget got r w = (x, got', r', w') ∧
      i.ideal.gather block wanted budget got b () = (x, got', b', ()) ∧
      i.Live ((r', b') :: l) w' := by
  unfold Source.gather
  by_cases hzero : wanted = 0
  · rw [if_pos hzero, if_pos hzero]
    exact ⟨_, _, r, b, w, rfl, rfl, h⟩
  rw [if_neg hzero, if_neg hzero]
  cases budget with
  | zero => exact ⟨_, _, r, b, w, rfl, rfl, h⟩
  | succ budget =>
    obtain ⟨x, y, r', b', w', hr, hb, hsame, h'⟩ := i.next h
    dsimp only
    rw [hr, hb]
    cases hsame with
    | failed f => exact ⟨_, _, r', b', w', rfl, rfl, h'⟩
    | nothing => exact ⟨_, _, r', b', w', rfl, rfl, h'⟩
    | @packet p q hpq =>
      have hreadable : q.readable = p.readable := by rw [Packet.readable, hpq, Packet.readable]
      dsimp only
      rw [hreadable]
      by_cases hempty : p.readable = 0
      · rw [if_pos hempty, if_pos hempty]
        exact gather block wanted budget got (i.live_release p (i.live_note _ h'))
      rw [if_neg hempty, if_neg hempty]
      by_cases hover : wanted < p.readable
      · rw [if_pos hover, if_pos hover]
        exact ⟨_, _, r', b', _, rfl, rfl, i.live_release p h'⟩
      rw [if_neg hover, if_neg hover, Packet.take_of_unread hpq]
      rcases p.take (.ofNat p.readable) with ⟨f | bytes, taken⟩
      · exact ⟨_, _, r', b', _, rfl, rfl, i.live_release taken h'⟩
      · exact gather block _ _ _ (i.live_release taken h')
termination_by (wanted, budget)

end Source.Independent

/-! ## Scripted sources -/

/-- Where nothing is kept, every call is the first. -/
instance : Counting Unit := ⟨fun w => (0, w)⟩

/-- A scripted reader leaves its surroundings alone. -/
theorem ScriptedReader.next_eq {W : Type} (r : ScriptedReader) (w : W) :
    r.next w = ((r.next ()).1, (r.next ()).2.1, w) := by
  unfold next
  split
  · rfl
  split
  · rfl
  split
  · rfl
  · rfl

namespace SourceScript

theorem create_unit (s : SourceScript) (hreaders : s.readers.length ≤ 1)
    (hcreates : s.failingCreates = []) (offset length : UInt64) (w : Site) : ∃ r,
    s.create offset length w = (.ok r, { w with calls := w.calls + 1 }) ∧
      s.create offset length () = (.ok r, ()) := by
  have hscript : forCall? s.readers w.calls = forCall? s.readers 0 := by
    unfold forCall?
    congr 1
    omega
  unfold create
  rw [hcreates]
  simp only [Counting.count, hscript]
  exact ⟨_, rfl, rfl⟩

/-- A scripted source that has one script for all readers and fails to make none of them. -/
def independent (s : SourceScript) (hreaders : s.readers.length ≤ 1)
    (hcreates : s.failingCreates = []) : (s.source (W := Site)).Independent where
  Conduct := ScriptedReader
  ideal := s.source
  Live l _ := ∀ x ∈ l, x.1 = x.2
  live_note _ h := h
  live_release _ h := h
  create {l w} offset length h := by
    obtain ⟨r, hw, hideal⟩ := s.create_unit hreaders hcreates offset length w
    exact .inr ⟨r, r, _, hw, hideal, List.forall_mem_cons.2 ⟨rfl, h⟩⟩
  next {l r b w} h := by
    obtain ⟨hrb, hl⟩ := List.forall_mem_cons.1 h
    obtain rfl : r = b := hrb
    refine ⟨_, _, _, _, w, r.next_eq w, r.next_eq (), ?_, List.forall_mem_cons.2 ⟨rfl, hl⟩⟩
    rcases (r.next ()).1 with f | _ | p
    · exact .failed f
    · exact .nothing
    · exact .packet rfl
  close {l r b w} h := by
    obtain ⟨hrb, hl⟩ := List.forall_mem_cons.1 h
    obtain rfl : r = b := hrb
    show ∃ x r' b' w', r.close w = (x, r', w') ∧ r.close () = (x, b', ()) ∧ _
    unfold ScriptedReader.close
    by_cases hfails : r.script.closeFails = true
    · rw [if_pos hfails, if_pos hfails]
      exact ⟨_, r, r, w, rfl, rfl, hl⟩
    · rw [if_neg hfails, if_neg hfails]
      exact ⟨_, r, r, w, rfl, rfl, hl⟩
  shutDown {w} h := by
    unfold source
    dsimp only
    by_cases hfails : s.shutDownFails = true
    · rw [if_pos hfails, if_pos hfails]
      exact ⟨_, w, rfl, rfl, h⟩
    · rw [if_neg hfails, if_neg hfails]
      exact ⟨_, w, rfl, rfl, h⟩

end SourceScript

end BlockAccess

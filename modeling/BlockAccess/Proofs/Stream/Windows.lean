import Mathlib
import BlockAccess.Proofs.Stream.Gathering
import BlockAccess.Proofs.Stream.Queries

/-!
# What a read does to memory

A client that names a window of its memory relies on a read to keep to it, however large the packets
are that the source hands out and whatever fails on the way.  `Step.Guarded` says what it gets.  A
window that does not fit into the memory is refused before anything happens, and nothing else is
refused for it; both are said in exact numbers, so offsets and sizes near 2^64 are no exception.  A
window that fits is overwritten from its start on, by the bytes that were obtained and no more.

`Op.obtains` is what a read obtains.  It looks at the stream and its source only, so what is written
does not depend on what the memory held before.
-/

namespace BlockAccess

/-! ## Memory -/

namespace Destination

variable {d : Destination} {offset : Nat} {b : Bytes}

/-- The bytes from an offset on are overwritten, and nothing else is. -/
structure Overwritten (d : Destination) (offset : Nat) (b : Bytes) (d' : Destination) : Prop where
  size : d'.size = d.size
  length : d'.cells.length = d.cells.length
  inside : ∀ i, i < b.length → d'.cells[offset + i]? = b[i]?
  outside : ∀ i, i < offset ∨ offset + b.length ≤ i → d'.cells[i]? = d.cells[i]?

theorem overwritten_put (h : offset + b.length ≤ d.cells.length) :
    d.Overwritten offset b (d.put offset b) := by
  have hbefore : (d.cells.take offset).length = offset := List.length_take_of_le (by omega)
  have hwritten : (d.cells.take offset ++ b).length = offset + b.length := by
    rw [List.length_append, hbefore]
  constructor
  case size => rfl
  case length =>
    rw [put, List.length_append, hwritten, List.length_drop]
    omega
  case inside =>
    intro i hi
    show (d.cells.take offset ++ b ++ d.cells.drop (offset + b.length))[offset + i]? = b[i]?
    rw [List.getElem?_append_left (by omega), List.getElem?_append_right (by omega), hbefore,
      Nat.add_sub_cancel_left]
  case outside =>
    intro i hi
    show (d.cells.take offset ++ b ++ d.cells.drop (offset + b.length))[i]? = d.cells[i]?
    rcases hi with hi | hi
    · rw [List.getElem?_append_left (by omega), List.getElem?_append_left (by omega),
        List.getElem?_take_of_lt hi]
    · rw [List.getElem?_append_right (by omega), hwritten, List.getElem?_drop]
      congr 1
      omega

end Destination

/-! ## What is obtained -/

variable {W R : Type} [Journaled W]

namespace Stream

/-- The number that is told of some bytes is theirs. -/
theorem length_eq_of_countOf_eq {b : Bytes} {n : Option Nat} (h : countOf b = n) :
    b.length = n.getD 0 := by
  rw [← h]
  cases b <;> rfl

/-- A read at a position obtains no more than was asked for, and tells how much it is. -/
theorem readAt_obtains {src : Source W R} {target : Int64} {count : UInt64} {s : Stream R}
    {w w' : W} {x : Except Failure (Option Nat)} {b : Bytes}
    (h : s.readAt src target count w = (x, b, w')) :
    b.length ≤ count.toNat ∧ ∀ n, x = .ok n → b.length = n.getD 0 := by
  cases readAt_cases h with
  | shut | refused => exact ⟨Nat.zero_le _, fun n hn => by simp at hn⟩
  | idle | outside => exact ⟨Nat.zero_le _, fun n hn => by cases hn; rfl⟩
  | gathered _ hgather =>
    obtain ⟨ps, r₁, w₁, hgathers, hbytes, -⟩ := Source.gathered count.toNat_lt hgather
    rw [hbytes]
    exact ⟨hgathers.length_le, fun n hn => length_eq_of_countOf_eq (verdict_eq_ok hn).symm⟩

/-- A read in sequence obtains no more than was asked for. -/
theorem readSome_obtains {src : Source W R} {n : UInt64} {s s' : Stream R} {w w' : W} {b : Bytes}
    (hs : s.Tidy) (h : s.readSome src n w = (.ok (some b), s', w')) : b.length ≤ n.toNat := by
  rcases readSome_cases h with ⟨-, hx, -⟩ | ⟨-, -, hx, -⟩ | ⟨-, -, hf⟩
  · simp at hx
  · cases hx
    exact Nat.zero_le _
  · cases fetched hs hf with
    | bytes r p b _ hle _ => exact hle

/-- The window of memory that a call is given. -/
def Op.window? : Op → Option (Destination × UInt64 × UInt64)
  | .read (some d) offset count | .readAt _ (some d) offset count => some (d, offset, count)
  | _ => none

/-- The bytes that a read obtains.  The memory it is given has no part in it. -/
def Op.obtains (src : Source W R) (op : Op) (p : Stream R × W) : Bytes :=
  match op with
  | .read _ _ count =>
    match (p.1.readSome src count p.2).1 with
    | .ok (some b) => b
    | _ => []
  | .readAt target _ _ count => (p.1.readAt src target count p.2).2.1
  | _ => []

/-! ## Calls -/

section Calls

variable {src : Source W R} {op : Op} {d : Destination} {offset count : UInt64} {p : Stream R × W}

/-- A window that does not fit is refused, and the call does nothing else. -/
theorem step_refused (hop : op.window? = some (d, offset, count)) (hopen : p.1.closed = false)
    (hlarge : d.size.toNat < offset.toNat + count.toNat) :
    step src op p =
      ⟨op, p, { result := .error (.misuse (.window d.size offset count)), memory := some d }, p⟩ := by
  have hadmits : d.admits offset count = false := by
    rw [← Bool.not_eq_true, Destination.admits_iff]
    omega
  have hd : p.1.destination? (some d) offset count =
      .error (.misuse (.window d.size offset count)) := by
    simp [destination?, hopen, hadmits]
  unfold Op.window? at hop
  split at hop
  · cases hop
    exact step_read_refused hd
  · cases hop
    simp only [step, perform, readAtInto, hd]
    rfl
  · simp at hop

/-- A read into a window that fits. -/
structure Fits (src : Source W R) (op : Op) (d : Destination) (offset count : UInt64)
    (p : Stream R × W) : Prop where
  memory : (step src op p).outcome.memory = some (d.put offset.toNat (op.obtains src p))
  length_le : (op.obtains src p).length ≤ count.toNat
  counted : ∀ n, (step src op p).outcome.result = .ok (.count n) →
    (op.obtains src p).length = n.getD 0

theorem step_fits (hop : op.window? = some (d, offset, count)) (hopen : p.1.closed = false)
    (hs : p.1.Tidy) (hfits : offset.toNat + count.toNat ≤ d.size.toNat) :
    Fits src op d offset count p := by
  have hd : p.1.destination? (some d) offset count = .ok d := by
    simp [destination?, hopen, d.admits_iff, hfits]
  unfold Op.window? at hop
  split at hop
  · cases hop
    rcases hr : p.1.readSome src count p.2 with ⟨x, q⟩
    have hb (b : Bytes) (hx : x = .ok (some b)) : b.length ≤ count.toNat := by
      subst hx
      exact readSome_obtains hs hr
    constructor
    case memory =>
      rw [step_read hd hr]
      simp only [Op.obtains, hr]
      rcases x with f | _ | b
      · exact congrArg some (Destination.put_nil ..).symm
      · exact congrArg some (Destination.put_nil ..).symm
      · rfl
    case length_le =>
      simp only [Op.obtains, hr]
      rcases x with f | _ | b
      · exact Nat.zero_le _
      · exact Nat.zero_le _
      · exact hb b rfl
    case counted =>
      intro n hn
      rw [step_read hd hr] at hn
      simp only [Op.obtains, hr]
      rcases x with f | _ | b
      · simp [Except.map] at hn
      · cases hn
        rfl
      · cases hn
        rfl
  · next target _ _ _ =>
    cases hop
    rcases hr : p.1.readAt src target count p.2 with ⟨x, b, w'⟩
    obtain ⟨hlength, hcounted⟩ := readAt_obtains hr
    constructor
    all_goals simp only [step, perform, readAtInto, hd, Op.obtains, hr]
    · exact hlength
    · intro n hn
      refine hcounted n ?_
      cases x with
      | error f => simp [Except.map] at hn
      | ok m =>
        cases hn
        rfl
  · simp at hop

end Calls

/-! ### Failures -/

omit [Journaled W] in
theorem eq_error_of_map {α β ε : Type} {g : α → β} {x : Except ε α} {f : ε}
    (h : x.map g = .error f) : x = .error f := by
  cases x with
  | error f' => exact congrArg Except.error (Except.error.inj h)
  | ok a => simp [Except.map] at h

/-- What is to blame for a read at a position is among what was seen; closing the reader may follow. -/
theorem blames_readAt {src : Source W R} {s : Stream (Numbered R)} {o o' : Observed W}
    {target : Int64} {count : UInt64} {f : Failure} {b : Bytes} (hopen : s.closed = false)
    (h : s.readAt src.observed target count o = (.error f, b, o')) :
    ∃ es e es', o.Saw (es ++ e :: es') o' ∧ src.Blames s.block f e := by
  generalize hx : Except.error f = x at h
  cases readAt_cases h with
  | shut hclosed => exact absurd (hclosed.symm.trans hopen) (by decide)
  | idle | outside => simp at hx
  | refused hcreate =>
    obtain rfl : f = _ := Except.error.inj hx
    obtain ⟨hsaw, hblames⟩ := Source.saw_refused s.block hcreate
    exact ⟨[], _, [], hsaw, hblames⟩
  | @gathered r r₁ r₂ o₀ o₁ o₂ _ got y z hcreate hgather hclose hnoted =>
    have hmade := (Source.saw_made hcreate).2
    obtain ⟨hsaw, hblames⟩ := Source.saw_close s.block hclose
    have hclosed := hsaw.noted hnoted
    rcases verdict_eq_error hx.symm with rfl | ⟨rfl, rfl⟩
    · -- closing the reader adds one event, and it is the first failure that is told
      obtain ⟨es, e, hes, he⟩ := hmade.sawLast (Source.blames_gather count.toNat_lt hgather)
      have hseries := hes.append hclosed
      rw [List.append_assoc] at hseries
      exact ⟨es, e, _, hseries, he⟩
    · obtain ⟨es, hes, -⟩ : Asked target.toUInt64 count o₀.events.toList o₁ :=
        (upholds_asked src _ _ o₀.events.toList).gather (.now _ _ o₀) hgather
      exact ⟨_, _, [], (hmade.append hes).append hclosed, hblames f rfl⟩

/-- A read into a window that fits fails for a reason that was seen. -/
theorem blames_step {src : Source W R} {op : Op} {d : Destination} {offset count : UInt64}
    {p : Stream (Numbered R) × Observed W} (hop : op.window? = some (d, offset, count))
    (hopen : p.1.closed = false) (hfits : offset.toNat + count.toNat ≤ d.size.toNat) {f : Failure}
    (hfail : (step src.observed op p).outcome.result = .error f) :
    ∃ e ∈ (step src.observed op p).events, src.Blames p.1.block f e := by
  have hd : p.1.destination? (some d) offset count = .ok d := by
    simp [destination?, hopen, d.admits_iff, hfits]
  unfold Op.window? at hop
  split at hop
  · cases hop
    rcases hr : p.1.readSome src.observed count p.2 with ⟨x, q⟩
    rw [step_read hd hr] at hfail ⊢
    obtain rfl := eq_error_of_map hfail
    rcases readSome_cases hr with ⟨hclosed, -⟩ | ⟨-, -, hx, -⟩ | ⟨-, -, hf⟩
    · simp [hopen] at hclosed
    · simp at hx
    · obtain ⟨es, e, hes, hblames⟩ := blames_fetch hf
      exact ⟨e, mem_events hes, hblames⟩
  · next target _ _ _ =>
    cases hop
    rcases hr : p.1.readAt src.observed target count p.2 with ⟨x, b, w'⟩
    simp only [step, perform, readAtInto, hd, hr] at hfail ⊢
    obtain rfl := eq_error_of_map hfail
    obtain ⟨es, e, es', hes, hblames⟩ := blames_readAt hopen hr
    exact ⟨e, mem_events hes, hblames⟩
  · simp at hop

/-! ## Every run -/

/-- What a read does to the memory that it is given. -/
structure Step.Guarded (src : Source W R) (st : Step (Observed W) (Numbered R)) (d : Destination)
    (offset count : UInt64) : Prop where
  /-- A window that does not fit is refused.  Nothing is asked of the source, and stream and memory
  stay as they are. -/
  refused : d.size.toNat < offset.toNat + count.toNat →
    st.outcome.result = .error (.misuse (.window d.size offset count)) ∧
      st.outcome.memory = some d ∧ st.events = [] ∧ st.after = st.before
  /-- A window that fits is never refused, unless it is the source that fails in these words. -/
  refused_iff : (∀ e ∈ st.events,
      ¬src.Blames st.before.1.block (.misuse (.window d.size offset count)) e) →
    (st.outcome.result = .error (.misuse (.window d.size offset count)) ↔
      d.size.toNat < offset.toNat + count.toNat)
  /-- A read into a window that fits fails for a reason that was seen of the source. -/
  blamed : offset.toNat + count.toNat ≤ d.size.toNat → ∀ f, st.outcome.result = .error f →
    ∃ e ∈ st.events, src.Blames st.before.1.block f e
  /-- No bytes are taken from a packet that does not have them, unless it is the source that fails
  in these words. -/
  taken : ∀ wanted readable, (∀ e ∈ st.events,
      ¬src.Blames st.before.1.block (.misuse (.underflow wanted readable)) e) →
    st.outcome.result ≠ .error (.misuse (.underflow wanted readable))
  /-- The window is overwritten from its start on, by what was obtained, also if the read fails. -/
  overwritten : offset.toNat + count.toNat ≤ d.size.toNat → d.size.toNat ≤ d.cells.length →
    ∃ d', st.outcome.memory = some d' ∧
      d.Overwritten offset.toNat (st.op.obtains src.observed st.before) d'
  length_le : offset.toNat + count.toNat ≤ d.size.toNat →
    (st.op.obtains src.observed st.before).length ≤ count.toNat
  /-- The number that is told is the number of bytes written; without one, nothing is. -/
  counted : offset.toNat + count.toNat ≤ d.size.toNat → ∀ n, st.outcome.result = .ok (.count n) →
    (st.op.obtains src.observed st.before).length = n.getD 0 ∧
      (n.getD 0 = 0 → st.outcome.memory = some d)

theorem guarded_step (src : Source W R) {op : Op} {p : Stream (Numbered R) × Observed W}
    (hs : p.1.Tidy) (hopen : p.1.closed = false) {d : Destination} {offset count : UInt64}
    (hop : op.window? = some (d, offset, count)) :
    (step src.observed op p).Guarded src d offset count := by
  have hrefused (hlarge : d.size.toNat < offset.toNat + count.toNat) :
      step src.observed op p =
        ⟨op, p, { result := .error (.misuse (.window d.size offset count)), memory := some d }, p⟩ :=
    step_refused hop hopen hlarge
  have hfit (h : offset.toNat + count.toNat ≤ d.size.toNat) :
      Fits src.observed op d offset count p := step_fits hop hopen hs h
  constructor
  case refused =>
    intro hlarge
    rw [hrefused hlarge]
    exact ⟨rfl, rfl, Step.events_eq (Observed.Saw.nothing p.2), rfl⟩
  case refused_iff =>
    intro hsource
    constructor
    · intro hresult
      by_contra hfits
      obtain ⟨e, he, hblames⟩ := blames_step hop hopen (Nat.le_of_not_lt hfits) hresult
      exact hsource e he hblames
    · intro hlarge
      rw [hrefused hlarge]
  case blamed => exact fun hfits f hfail => blames_step hop hopen hfits hfail
  case taken =>
    intro wanted readable hsource hresult
    by_cases hfits : offset.toNat + count.toNat ≤ d.size.toNat
    · obtain ⟨e, he, hblames⟩ := blames_step hop hopen hfits hresult
      exact hsource e he hblames
    · rw [hrefused (Nat.lt_of_not_le hfits)] at hresult
      simp at hresult
  case overwritten =>
    intro hfits hsize
    have hend : offset.toNat + (op.obtains src.observed p).length ≤ d.cells.length :=
      Nat.le_trans (Nat.add_le_add_left (hfit hfits).length_le _) (Nat.le_trans hfits hsize)
    exact ⟨_, (hfit hfits).memory, Destination.overwritten_put hend⟩
  case length_le => exact fun hfits => (hfit hfits).length_le
  case counted =>
    intro hfits n hn
    have hcounted := (hfit hfits).counted n hn
    refine ⟨hcounted, fun hzero => ?_⟩
    rw [(hfit hfits).memory, List.length_eq_zero_iff.1 (hcounted.trans hzero), Destination.put_nil]

/-- **A read keeps to the window that it is given.**  For every source and every run of calls, and
for windows of any offset and size. -/
theorem guarded_history (src : Source W R) (w : W) (block length : UInt64) (ops : List Op) :
    ∀ st ∈ history src.observed ops (start block length, { inner := w }),
      st.before.1.closed = false → ∀ d offset count, st.op.window? = some (d, offset, count) →
        st.Guarded src d offset count :=
  forall_mem_history (I := fun p => p.1.Tidy)
    (fun op _ hp => ⟨fun hopen _ _ _ hop => guarded_step src hp hopen hop, (step_tidy _ op hp).1⟩)
    (fun _ => rfl) ops

/-- A block of seven bytes whose first reader goes on beyond its range, in packets of two bytes and
then of five. -/
def lavish : SourceScript where
  block := [1, 2, 3, 4, 5, 6, 7]
  readers := [{ sizes := [2, 5], unbounded := true }]

/-- Three bytes are wanted, two are written, and then there are five more: the read fails with the
two bytes in the window, and memory around the window is as it was. -/
theorem guarded_history_lavish :
    ∃ st ∈ history (lavish.source (W := Site)).observed [.readAt 0 (some ⟨5, [9, 9, 9, 9, 9]⟩) 1 3]
        (start 1 7, { inner := {} }),
      st.before.1.closed = false ∧ st.op.window? = some (⟨5, [9, 9, 9, 9, 9]⟩, 1, 3) ∧
        st.outcome.result = .error (.transport (.overrun 5 1)) ∧
        st.outcome.memory = some ⟨5, [9, 1, 2, 9, 9]⟩ ∧
        st.Guarded lavish.source ⟨5, [9, 9, 9, 9, 9]⟩ 1 3 := by
  refine ⟨_, List.mem_singleton_self _, rfl, rfl, ?_, ?_, ?_⟩
  · cbv
  · cbv
  · exact guarded_history lavish.source ({} : Site) 1 7
      [.readAt 0 (some ⟨5, [9, 9, 9, 9, 9]⟩) 1 3] _ (List.mem_singleton_self _) rfl _ _ _ rfl

end Stream
end BlockAccess

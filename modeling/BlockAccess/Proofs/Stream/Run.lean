import BlockAccess.Opening
import BlockAccess.Stream.Destination

/-!
# What a client does with a stream

A client makes calls on a stream, one after the other, and each call ends with an answer or with a
failure.  `Op` lists the calls, `perform` carries one out, and `history` is the record of a whole
run: for every call the stream and the surroundings before it, how it ended, and the stream and the
surroundings after it.

Nothing is assumed about the order of the calls or about their arguments.  A call that fails is
followed by the next one all the same, on the stream that the failure left behind.
-/

namespace BlockAccess
namespace Stream

/-- A call that a client makes on a stream. -/
inductive Op where
  | readByte
  | read (memory : Option Destination) (offset count : UInt64)
  | readAt (target : Int64) (memory : Option Destination) (offset count : UInt64)
  | remaining
  | position
  | seek (target : Int64)
  | skip (n : Int64)
  | close
  deriving DecidableEq, Repr

namespace Op

/-- The reads in sequence. -/
def reads : Op → Bool
  | readByte | read .. => true
  | _ => false

/-- The reads at a position. -/
def visits : Op → Bool
  | readAt .. => true
  | _ => false

/-- The calls that are about the sequence of bytes: all but reads at a position and closing. -/
def sequential : Op → Bool
  | readAt .. | close => false
  | _ => true

end Op

/-- What a call gives that ends well. -/
inductive Answer where
  /-- The byte read; none at the end of the stream. -/
  | byte (b : Option UInt8)
  /-- The number of bytes read; none at the end of the stream. -/
  | count (n : Option Nat)
  /-- The number of bytes that are left, or that were passed over. -/
  | amount (n : Int64)
  | position (p : UInt64)
  | done
  deriving DecidableEq, Repr

/-- How a call ends. -/
structure Outcome where
  result : Except Failure Answer
  /-- The memory that the call was given, as it is afterwards. -/
  memory : Option Destination := none

/-- What a read in sequence gives when it obtains some bytes, or none at the end. -/
def Op.answer : Op → Option Bytes → Answer
  | .readByte, b => .byte (b.bind List.head?)
  | _, b => .count (b.map List.length)

variable {W R : Type} [Journaled W]

/-- Makes a call. -/
def perform (src : Source W R) (op : Op) (s : Stream R) (w : W) : Outcome × Stream R × W :=
  match op with
  | .readByte =>
    match s.readByte src w with
    | (result, s, w) => ({ result := result.map .byte }, s, w)
  | .read memory offset count =>
    match s.readInto src memory offset count w with
    | (result, memory, s, w) => ({ result := result.map .count, memory }, s, w)
  | .readAt target memory offset count =>
    match s.readAtInto src target memory offset count w with
    | (result, memory, w) => ({ result := result.map .count, memory }, s, w)
  | .remaining => ({ result := s.remaining.map .amount }, s, w)
  | .position => ({ result := .ok (.position s.position) }, s, w)
  | .seek target =>
    match s.seek src target w with
    | (result, s, w) => ({ result := result.map fun _ => .done }, s, w)
  | .skip n =>
    match s.skip src n w with
    | (result, s, w) => ({ result := result.map .amount }, s, w)
  | .close =>
    match s.close src w with
    | (result, s, w) => ({ result := result.map fun _ => .done }, s, w)

/-! ## Runs -/

/-- A call of a run, with the stream and the surroundings on either side of it. -/
structure Step (W R : Type) where
  op : Op
  before : Stream R × W
  outcome : Outcome
  after : Stream R × W

/-- The number of bytes that a step read in sequence. -/
def Step.taken (st : Step W R) : Nat :=
  match st.op, st.outcome.result with
  | .readByte, .ok (.byte (some _)) => 1
  | .read .., .ok (.count (some k)) => k
  | _, _ => 0

/-- A call as a step of a run. -/
def step (src : Source W R) (op : Op) (p : Stream R × W) : Step W R where
  op := op
  before := p
  outcome := (perform src op p.1 p.2).1
  after := (perform src op p.1 p.2).2

/-- The memory given to a read in sequence, after the read. -/
def filled (memory : Option Destination) (d : Destination) (offset : UInt64) :
    Except Failure (Option Bytes) → Option Destination
  | .ok (some b) => some (d.put offset.toNat b)
  | _ => memory

theorem step_readByte {src : Source W R} {p q : Stream R × W} {x : Except Failure (Option Bytes)}
    (hr : p.1.readSome src 1 p.2 = (x, q)) :
    step src .readByte p = ⟨.readByte, p, { result := x.map (Op.answer .readByte) }, q⟩ := by
  simp only [step, perform, readByte, hr]
  cases x <;> rfl

theorem step_read_refused {src : Source W R} {memory : Option Destination} {offset count : UInt64}
    {p : Stream R × W} {f : Failure} (hd : p.1.destination? memory offset count = .error f) :
    step src (.read memory offset count) p =
      ⟨.read memory offset count, p, { result := .error f, memory }, p⟩ := by
  simp only [step, perform, readInto, hd]
  rfl

theorem step_read {src : Source W R} {memory : Option Destination} {offset count : UInt64}
    {d : Destination} {p q : Stream R × W} {x : Except Failure (Option Bytes)}
    (hd : p.1.destination? memory offset count = .ok d)
    (hr : p.1.readSome src count p.2 = (x, q)) :
    step src (.read memory offset count) p =
      ⟨.read memory offset count, p,
        { result := x.map (Op.answer (.read memory offset count))
          memory := filled memory d offset x }, q⟩ := by
  simp only [step, perform, readInto, hd, hr]
  rcases x with _ | _ | b <;> rfl

/-! ### Histories -/

/-- The steps of a run, the first one first. -/
def history (src : Source W R) : List Op → Stream R × W → List (Step W R)
  | [], _ => []
  | op :: ops, p => step src op p :: history src ops (step src op p).after

theorem history_cons (src : Source W R) (op : Op) (ops : List Op) (p : Stream R × W) :
    history src (op :: ops) p = step src op p :: history src ops (step src op p).after := rfl

/-- The stream and the surroundings at the end of a run. -/
def run (src : Source W R) : List Op → Stream R × W → Stream R × W
  | [], p => p
  | op :: ops, p => run src ops (step src op p).after

theorem run_cons (src : Source W R) (op : Op) (ops : List Op) (p : Stream R × W) :
    run src (op :: ops) p = run src ops (step src op p).after := rfl

theorem run_append (src : Source W R) (ops ops' : List Op) (p : Stream R × W) :
    run src (ops ++ ops') p = run src ops' (run src ops p) := by
  induction ops generalizing p with
  | nil => rfl
  | cons op ops ih => exact ih _

theorem history_append (src : Source W R) (ops ops' : List Op) (p : Stream R × W) :
    history src (ops ++ ops') p = history src ops p ++ history src ops' (run src ops p) := by
  induction ops generalizing p with
  | nil => rfl
  | cons op ops ih => rw [List.cons_append, history_cons, history_cons, ih, run_cons]; rfl

/-- The calls of a run are the ones that were made. -/
@[simp] theorem map_op_history (src : Source W R) (ops : List Op) (p : Stream R × W) :
    (history src ops p).map Step.op = ops := by
  induction ops generalizing p with
  | nil => rfl
  | cons op ops ih =>
    rw [history_cons, List.map_cons, ih]
    rfl

/-- If what holds at the start is kept by the calls that are `P`, and such calls are `Q`, then in a
run all of whose calls are `P` all are `Q`. -/
theorem forall_mem_history_imp {src : Source W R} {I : Stream R × W → Prop}
    {P Q : Step W R → Prop}
    (hstep : ∀ op p, I p → P (step src op p) → Q (step src op p) ∧ I (step src op p).after)
    {p : Stream R × W} (hp : I p) {ops : List Op} (hall : ∀ st ∈ history src ops p, P st) :
    ∀ st ∈ history src ops p, Q st := by
  induction ops generalizing p with
  | nil => exact fun st hst => absurd hst List.not_mem_nil
  | cons op ops ih =>
    rw [history_cons, List.forall_mem_cons] at hall ⊢
    obtain ⟨hq, hafter⟩ := hstep op p hp hall.1
    exact ⟨hq, ih hafter hall.2⟩

/-- What follows for a call from what all calls keep holds for every call of a run. -/
theorem forall_mem_history {src : Source W R} {I : Stream R × W → Prop} {P : Step W R → Prop}
    (hstep : ∀ op p, I p → P (step src op p) ∧ I (step src op p).after)
    {p : Stream R × W} (hp : I p) (ops : List Op) : ∀ st ∈ history src ops p, P st :=
  forall_mem_history_imp (P := fun _ => True) (fun op p hp _ => hstep op p hp) hp
    fun _ _ => trivial

/-- What is kept by every call holds at the end of a run. -/
theorem run_keeps {src : Source W R} {I : Stream R × W → Prop}
    (hstep : ∀ op p, I p → I (step src op p).after) {p : Stream R × W} (hp : I p)
    (ops : List Op) : I (run src ops p) := by
  induction ops generalizing p with
  | nil => exact hp
  | cons op ops ih => exact ih (hstep op p hp)

end Stream
end BlockAccess

import BlockAccess.Channel
import BlockAccess.Worker

/-!
# Scripted channels

A channel that plays a script, for trying a client against a worker of any conduct.  The script says
what is received, in order; which sends fail, and whether closing does.  It may also keep a block
and answer requests from it, and then it may obey a request to cancel or ignore it.

Responses wait in a queue, and receiving from an empty queue fails, so every script is finite.
-/

namespace BlockAccess

/-- A block that a scripted channel answers from. -/
structure Serving where
  worker : Worker
  /-- Whether a request to cancel has no effect. -/
  ignoresCancel : Bool := false
  deriving DecidableEq, Repr

/-- A scripted channel and how far its script is played. -/
structure ScriptedChannel where
  /-- A number to tell channels apart by. -/
  number : Nat := 0
  queue : List Wire.Response := []
  serving : Option Serving := none
  /-- The sends that fail, counted from zero. -/
  failingSends : List Nat := []
  closeFails : Bool := false
  /-- The number of sends so far. -/
  sends : Nat := 0
  deriving DecidableEq, Repr

namespace ScriptedChannel

variable {W : Type}

/-- The queue after a request. -/
def queueAfter (c : ScriptedChannel) (r : Wire.Request) : List Wire.Response :=
  match c.serving with
  | none => c.queue
  | some s =>
    if !r.cancel then c.queue ++ s.worker.serve r
    else if s.ignoresCancel then c.queue
    else [Worker.cancelled]

/-- Sends a request.  A send that fails has no other effect than to be counted. -/
def send (r : Wire.Request) (c : ScriptedChannel) (w : W) :
    Except Failure Unit × ScriptedChannel × W :=
  let counted := { c with sends := c.sends + 1 }
  if c.failingSends.contains c.sends then
    (.error (.transport (.reported (text "injected send failure"))), counted, w)
  else (.ok (), { counted with queue := c.queueAfter r }, w)

/-- Receives the next response of the queue. -/
def receive (c : ScriptedChannel) (w : W) : Except Failure Wire.Response × ScriptedChannel × W :=
  match c.queue with
  | [] => (.error (.transport (.reported (text "fake channel has nothing to receive"))), c, w)
  | r :: rest => (.ok r, { c with queue := rest }, w)

/-- Closes the channel. -/
def close (c : ScriptedChannel) (w : W) : Except Failure Unit × ScriptedChannel × W :=
  if c.closeFails then
    (.error (.transport (.reported (text "injected channel close failure"))), c, w)
  else (.ok (), c, w)

/-- The responses of a queue and the data in them. -/
def weigh : List Wire.Response → Nat
  | [] => 0
  | r :: rest => r.dataSize + 1 + weigh rest

/-- The responses in the queue and the data in them. -/
def pending (c : ScriptedChannel) : Nat := weigh c.queue

theorem pending_receive {c d : ScriptedChannel} {w v : W} {r : Wire.Response}
    (h : c.receive w = (.ok r, d, v)) : d.pending + r.dataSize < c.pending := by
  unfold receive at h
  split at h
  · simp at h
  · next hq =>
    simp only [Prod.mk.injEq, Except.ok.injEq] at h
    obtain ⟨rfl, rfl, -⟩ := h
    simp only [pending, hq, weigh]
    omega

/-- Scripted channels. -/
def channel : Channel W ScriptedChannel where
  send := send
  receive := receive
  close := close
  pending := pending
  pending_receive := pending_receive

end ScriptedChannel

/-! ## Dialling by script -/

/-- What a scripted dialler does on a call. -/
inductive Reception (C : Type) where
  /-- It makes the channel for the number of the call. -/
  | channel (make : Nat → C)
  /-- It comes back without a channel. -/
  | nothing
  /-- It fails in the given words. -/
  | failure (message : Text)

/-- The entry for call `n` of a list whose last entry stands for all that follow. -/
def forCall? {α : Type} (l : List α) (n : Nat) : Option α := l[min n (l.length - 1)]?

/-- Dials by script; without a script there is no channel.  Calls are counted, whatever comes of
them. -/
def Dialler.scripted {W C : Type} [Counting W] (script : List (Reception C)) : Dialler W C :=
  fun _ w =>
    match Counting.count w with
    | (n, w) =>
      match forCall? script n with
      | some (.channel make) => (.ok (some (make n)), w)
      | some (.failure message) => (.error (.transport (.reported message)), w)
      | some .nothing | none => (.ok none, w)

end BlockAccess

import Mathlib.Data.List.Chain
import BlockAccess.Proofs.Channel.Framing

/-!
# Where frames begin

A stream of bytes has boundaries, whether it makes sense or not: the first byte is one, and every
header tells where the next one is (`Boundary`).  Each header skips over its body, so there is no
boundary within a frame (`Boundary.le_of_lt`).

A call that receives takes the bytes at its front for a header.  Most calls leave the connection at
a boundary if they find it at one, also if the body makes no sense.  The exception are calls that do
not like the header: they leave the body where it is, and if there is one, the connection is astray
(`Strays`).  What happens then is up to the next call.  If it finds enough bytes for a header, it
takes the front of that body for one.

So calls stay in step with the frames as long as no call that strays is followed by one that looks
(`receipts_in_step`), and only so long.
-/

namespace BlockAccess

open Wire (Response)
open Wire.Frame (headerSize)
open Wire.Frame.Header (decode?)

/-- The length of a body that a header announces, whatever else the header says. -/
def announced (b : Bytes) : Nat := Wire.Word.decode (b.take 4)

/-- The places of a stream of bytes where a frame begins, if the announced lengths are right. -/
inductive Boundary (b : Bytes) : Nat → Prop
  | start : Boundary b 0
  | next {x : Nat} (hx : Boundary b x) (hheader : headerSize ≤ (b.drop x).length) :
    Boundary b (x + headerSize + announced (b.drop x))

/-- Behind a boundary there is none before the end of the frame. -/
theorem Boundary.le_of_lt {b : Bytes} {x y : Nat} (hx : Boundary b x) (hy : Boundary b y)
    (h : x < y) : x + headerSize + announced (b.drop x) ≤ y := by
  cases hy with
  | start => exact absurd h (Nat.not_lt_zero x)
  | @next z hz hheader =>
    rcases Nat.lt_trichotomy x z with hxz | rfl | hzx
    · have hle := hx.le_of_lt hz hxz
      omega
    · exact Nat.le_refl _
    · -- the frame at `z` is over before `x`
      have hle := hz.le_of_lt hx hzx
      omega
termination_by x + y
decreasing_by all_goals simp only [headerSize] at *; omega

/-- A response is held by a stream of bytes at some place: the header of a response stands there,
the body is there, and it is the body of this response. -/
def HeldAt (b : Bytes) (x : Nat) (r : Response) : Prop :=
  ∃ length, decode? ((b.drop x).take headerSize) = some { length, kind := .response } ∧
    x + headerSize + length ≤ b.length ∧
    Response.decode ((b.drop (x + headerSize)).take length) = .ok r

theorem announced_of_decode? {b : Bytes} {h : Wire.Frame.Header}
    (hheader : decode? (b.take headerSize) = some h) : announced b = h.length := by
  rw [Wire.Frame.Header.decode?_take] at hheader
  unfold decode? at hheader
  split at hheader
  · simp at hheader
  · simp only [Option.ite_none_left_eq_some, Option.map_eq_some_iff] at hheader
    obtain ⟨-, kind, -, rfl⟩ := hheader
    rfl

namespace Connection

namespace Receipt

/-- The place in a stream of bytes at which a call begins, if the bytes before the call are the end
of that stream. -/
def position (b : Bytes) (a : Receipt) : Nat := b.length - a.before.unread.length

/-- The call finds as many bytes as a header has, and takes them for one. -/
def Looks (a : Receipt) : Prop := headerSize ≤ a.before.unread.length

/-- The call does not accept the header that it finds, and the header announces a body. -/
def Strays (a : Receipt) : Prop :=
  a.Looks ∧ announced a.before.unread ≠ 0 ∧
    ∀ h, decode? (a.before.unread.take headerSize) = some h → h.kind = .request

theorem position_of_unread {a : Receipt} {b : Bytes} {x : Nat} (hx : x ≤ b.length)
    (h : a.before.unread = b.drop x) : a.position b = x := by
  rw [position, h, List.length_drop]
  omega

end Receipt

end Connection

/-! ## One call -/

open Connection (Receipt)

namespace Received

variable {b : Bytes} {a : Receipt} {f : Failure} {x n : Nat} {result : Except Failure Response}

/-- A call takes nothing that is not there. -/
theorem le_length (h : Received f b result n) : n ≤ b.length := by
  cases h with
  | cutHeader | cutBody => exact Nat.le_refl _
  | refused hle | unexpected hle | whole _ _ hle => exact hle

/-- A response that a call returns stands where the call began. -/
theorem heldAt {r : Response} (hx : x ≤ b.length) (h : Received f (b.drop x) (.ok r) n) :
    headerSize ≤ (b.drop x).length ∧ HeldAt b x r := by
  generalize hresult : (.ok r : Except Failure Response) = result at h
  cases h with
  | cutHeader | refused | unexpected | cutBody => simp at hresult
  | @whole head hheader hkind hle =>
    obtain ⟨length, kind⟩ := head
    obtain rfl : kind = .response := hkind
    rw [List.drop_drop] at hresult
    refine ⟨Nat.le_trans (Nat.le_add_right ..) hle, length, hheader, ?_, hresult.symm⟩
    simp only [List.length_drop] at hle
    omega

/-- A call that begins at a boundary ends at one, unless it takes everything or strays. -/
theorem boundary (hbefore : a.before.unread = b.drop x) (hboundary : a.Looks → Boundary b x)
    (hstays : ¬a.Strays) (h : Received f (b.drop x) result n)
    (hleft : headerSize ≤ (b.drop (x + n)).length) : Boundary b (x + n) := by
  rw [Receipt.Looks, hbefore] at hboundary
  rw [Receipt.Strays, Receipt.Looks, hbefore] at hstays
  have hlength : (b.drop x).length = b.length - x := List.length_drop
  rw [List.length_drop] at hleft
  have hnext (hle : headerSize ≤ (b.drop x).length) :
      Boundary b (x + headerSize + announced (b.drop x)) :=
    (hboundary hle).next hle
  -- a header that is not accepted is passed without its body, so there is none
  have hrejected (hle : headerSize ≤ (b.drop x).length)
      (hheader : ∀ h, decode? ((b.drop x).take headerSize) = some h → h.kind = .request) :
      Boundary b (x + headerSize) := by
    have hempty : announced (b.drop x) = 0 :=
      Decidable.byContradiction fun hbody => hstays ⟨hle, hbody, hheader⟩
    have hend := hnext hle
    rwa [hempty, Nat.add_zero] at hend
  cases h with
  | cutHeader | cutBody =>
    simp only [headerSize] at hleft
    omega
  | refused hle hheader =>
    exact hrejected hle fun h hsome => by simp [hheader] at hsome
  | unexpected hle hheader hkind =>
    refine hrejected hle fun h hsome => ?_
    obtain rfl := Option.some.inj (hheader.symm.trans hsome)
    exact hkind
  | whole hheader _ hle =>
    rw [← announced_of_decode? hheader, ← Nat.add_assoc]
    exact hnext (by omega)

/-- A call that strays ends within a frame. -/
theorem not_boundary (hbefore : a.before.unread = b.drop x) (hboundary : Boundary b x)
    (hstrays : a.Strays) (h : Received f (b.drop x) result n) : ¬Boundary b (x + n) := by
  obtain ⟨hlooks, hbody, hheader⟩ := hstrays
  rw [Receipt.Looks, hbefore] at hlooks
  rw [hbefore] at hbody hheader
  have hn : n = headerSize := by
    cases h with
    | cutHeader hcut => omega
    | refused | unexpected => rfl
    | cutBody _ hsome hkind | whole hsome hkind =>
      exact absurd (hkind.symm.trans (hheader _ hsome)) (by decide)
  intro hend
  have hpos : 0 < headerSize := by decide
  have hle := hboundary.le_of_lt hend (by omega)
  omega

end Received

/-! ## Calls in a row -/

namespace Connection

variable {W : Type} [Journaled W] {c : Connection} {b : Bytes} {x : Nat}

/-- What one call leaves to the next, seen from the stream. -/
theorem receive_drop (hopen : c.isOpen = true) (hx : x ≤ b.length) (hunread : c.unread = b.drop x)
    (w : W) :
    ∃ result n d w', c.receive w = (result, d, w') ∧ Received c.shortage (b.drop x) result n ∧
      d.isOpen = true ∧ x + n ≤ b.length ∧ d.unread = b.drop (x + n) := by
  obtain ⟨result, n, d, w', hreceive, hreceived, hrest, hlater⟩ := receive_cases hopen w
  rw [hunread] at hreceived hrest
  have hle := hreceived.le_length
  rw [List.length_drop] at hle
  exact ⟨result, n, d, w', hreceive, hreceived, hlater.isOpen.trans hopen, by omega,
    by rw [hrest, List.drop_drop]⟩

/-- A response that is returned stands in the stream where the call began. -/
theorem heldAt_of_mem_receipts (hopen : c.isOpen = true) (hx : x ≤ b.length)
    (hunread : c.unread = b.drop x) (w : W) (k : Nat) :
    ∀ a ∈ c.receipts k w, ∀ r, a.result = .ok r → a.Looks ∧ HeldAt b (a.position b) r := by
  induction k generalizing c w x with
  | zero => simp [receipts]
  | succ k ih =>
    obtain ⟨result, n, d, w', hreceive, hreceived, hopen', hx', hunread'⟩ :=
      receive_drop hopen hx hunread w
    rw [receipts_succ hreceive, List.forall_mem_cons]
    refine ⟨fun r hr => ?_, ih hopen' hx' hunread' w'⟩
    obtain rfl : result = .ok r := hr
    rw [Receipt.position_of_unread hx hunread, Receipt.Looks, hunread]
    exact hreceived.heldAt hx

/-- The first call begins where the connection stands. -/
theorem before_of_mem_head? {a : Receipt} {w : W} {k : Nat}
    (h : a ∈ (c.receipts k w).head?) : a.before = c := by
  cases k with
  | zero => simp [receipts] at h
  | succ k =>
    simp only [receipts, List.head?_cons, Option.mem_some_iff] at h
    rw [← h]

/-- As long as no call that strays is followed by one that looks, the calls are in step. -/
theorem boundary_of_mem_receipts (hopen : c.isOpen = true) (hx : x ≤ b.length)
    (hunread : c.unread = b.drop x) (hboundary : headerSize ≤ c.unread.length → Boundary b x)
    (w : W) (k : Nat)
    (h : (c.receipts k w).IsChain fun a a' => a.Strays → ¬a'.Looks) :
    ∀ a ∈ c.receipts k w, a.Looks → Boundary b (a.position b) := by
  induction k generalizing c w x with
  | zero => simp [receipts]
  | succ k ih =>
    obtain ⟨result, n, d, w', hreceive, hreceived, hopen', hx', hunread'⟩ :=
      receive_drop hopen hx hunread w
    rw [receipts_succ hreceive, List.isChain_cons] at h
    rw [receipts_succ hreceive, List.forall_mem_cons, Receipt.position_of_unread hx hunread]
    refine ⟨hboundary, ?_⟩
    cases k with
    | zero => simp [receipts]
    | succ k =>
      refine ih hopen' hx' hunread' (fun hleft => ?_) w' h.2
      have hstays : ¬(⟨c, result⟩ : Receipt).Strays := fun hstrays =>
        h.1 ⟨d, (d.receive w').1⟩ rfl hstrays hleft
      exact hreceived.boundary (a := ⟨c, result⟩) hunread hboundary hstays (hunread' ▸ hleft)

/-- Calls that are in step do not look after one that strays. -/
theorem isChain_receipts (hopen : c.isOpen = true) (hx : x ≤ b.length)
    (hunread : c.unread = b.drop x) (w : W) (k : Nat)
    (h : ∀ a ∈ c.receipts k w, a.Looks → Boundary b (a.position b)) :
    (c.receipts k w).IsChain fun a a' => a.Strays → ¬a'.Looks := by
  induction k generalizing c w x with
  | zero => exact .nil
  | succ k ih =>
    obtain ⟨result, n, d, w', hreceive, hreceived, hopen', hx', hunread'⟩ :=
      receive_drop hopen hx hunread w
    rw [receipts_succ hreceive, List.forall_mem_cons,
      Receipt.position_of_unread hx hunread] at h
    rw [receipts_succ hreceive, List.isChain_cons]
    refine ⟨fun a ha hstrays hlooks => ?_, ih hopen' hx' hunread' w' h.2⟩
    have hbefore : a.before.unread = b.drop (x + n) := by
      rw [before_of_mem_head? ha, hunread']
    have hend := h.2 a (List.mem_of_mem_head? ha) hlooks
    rw [Receipt.position_of_unread hx' hbefore] at hend
    exact hreceived.not_boundary hunread (h.1 hstrays.1) hstrays hend

/-- **Calls stay in step with the frames until one of them leaves a body behind.**  Whatever bytes
there are to be read, and however often it is tried, a response that is returned stands where the
call began.  That every call which finds a header begins at a boundary holds exactly if none of them
follows a call that did not accept a header and left the body that it announced. -/
theorem receipts_in_step (hopen : c.isOpen = true) (hb : c.socket.chunks.flatten = b) (w : W)
    (k : Nat) :
    (∀ a ∈ c.receipts k w, ∀ r, a.result = .ok r → a.Looks ∧ HeldAt b (a.position b) r) ∧
      ((∀ a ∈ c.receipts k w, a.Looks → Boundary b (a.position b)) ↔
        (c.receipts k w).IsChain fun a a' => a.Strays → ¬a'.Looks) := by
  have hx : 0 ≤ b.length := Nat.zero_le _
  have hunread : c.unread = b.drop 0 := hb
  exact ⟨heldAt_of_mem_receipts hopen hx hunread w k, isChain_receipts hopen hx hunread w k,
    boundary_of_mem_receipts hopen hx hunread (fun _ => .start) w k⟩

/-- A header without a body, of a kind that does not exist, and a packet behind it. -/
def unnamed : Connection where
  number := 0
  socket := { chunks := [[0, 0, 0, 0, 9], [0, 0, 0, 5, 2, 0, 0, 0, 0, 7]] }

/-- Nothing is left behind where no body was announced. -/
theorem receipts_in_step_unnamed :
    unnamed.isOpen = true ∧
      ∀ a ∈ unnamed.receipts 2 ({} : Journal), a.Looks →
        Boundary unnamed.socket.chunks.flatten (a.position unnamed.socket.chunks.flatten) := by
  have hchain : (unnamed.receipts 2 ({} : Journal)).IsChain fun a a' => a.Strays → ¬a'.Looks := by
    have hempty : announced unnamed.unread = 0 := by decide
    exact .cons_cons (fun hstrays => absurd hempty hstrays.2.1) (.singleton _)
  exact ⟨rfl, (receipts_in_step rfl rfl ({} : Journal) 2).2.2 hchain⟩

/-- A request, which a client must not be sent, and a packet.  The number of the block that the
request asks for reads like the front of an end mark. -/
def confused : Connection where
  number := 0
  socket :=
    { chunks := [Wire.Request.encode { blockId := 0x402000000 },
        Response.frame { data := some [9] }] }

/-- The second call returns the end mark that nobody sent, from within the request. -/
theorem exists_ok_not_boundary :
    ∃ a ∈ confused.receipts 2 ({} : Journal), a.result = .ok Response.endMark ∧
      ¬Boundary confused.socket.chunks.flatten (a.position confused.socket.chunks.flatten) := by
  let second := (confused.receive ({} : Journal)).2
  refine ⟨⟨second.1, (second.1.receive second.2).1⟩, .tail _ (.head _), by decide, ?_⟩
  have hposition : confused.socket.chunks.flatten.length - second.1.unread.length = 5 := by decide
  show ¬Boundary _ (confused.socket.chunks.flatten.length - second.1.unread.length)
  rw [hposition]
  intro hboundary
  have hle := Boundary.start.le_of_lt hboundary (by decide)
  revert hle
  decide

end Connection

end BlockAccess

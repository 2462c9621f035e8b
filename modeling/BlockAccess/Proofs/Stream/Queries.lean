import BlockAccess.Proofs.Stream.Visits

/-!
# What a client learns from a stream

A single read may give less than was asked for, and how much it gives depends on how the source
cuts the block.  A client who does not want to know reads in a loop until the window is full or the
stream is at its end (`fillWindow`).  Such loops and all other calls but closing are the `Query`s of
a client.

Over a source that delivers the block, the answer to a query is a function of the block, of its
declared length and of the cursor that the stream is (`Cursor.reply`).  So the answers to any number
of queries do not depend on the source (`Stands.replies`).  `Stands` is the invariant: which cursor
a stream is, and that it is ready.
-/

namespace BlockAccess

namespace Offset

theorem toNat_sub_ofNat {n : UInt64} {k : Nat} (h : k ≤ n.toNat) :
    (n - .ofNat k).toNat = n.toNat - k := by
  have hk : (UInt64.ofNat k).toNat = k :=
    UInt64.toNat_ofNat_of_lt' (Nat.lt_of_le_of_lt h n.toNat_lt)
  have hle : UInt64.ofNat k ≤ n := by rwa [UInt64.le_iff_toNat_le, hk]
  rw [toNat_sub hle, hk]

theorem toNat_add_ofNat {n : UInt64} {k : Nat} (h : n.toNat + k < UInt64.size) :
    (n + .ofNat k).toNat = n.toNat + k := by
  have hk : (UInt64.ofNat k).toNat = k :=
    UInt64.toNat_ofNat_of_lt' (Nat.lt_of_le_of_lt (Nat.le_add_left ..) h)
  rw [toNat_add (by rwa [hk]), hk]

/-- A signed word is known by its value. -/
theorem eq_ofNat {k : Int64} {n : Nat} (h : k.toInt = n) : k = .ofNat n := by
  rw [← Int64.ofInt_eq_ofNat, ← h, Int64.ofInt_toInt]

end Offset

open Offset

/-! ## Windows -/

namespace Destination

/-- The memory that a window lies in, if there is one and it does. -/
def ofWindow (d : Option Destination) (offset count : UInt64) : Except Failure Destination :=
  match d with
  | none => .error (.misuse .noDestination)
  | some d =>
    if d.admits offset count then .ok d else .error (.misuse (.window d.size offset count))

theorem ofWindow_eq_ok {memory : Option Destination} {d : Destination} {offset count : UInt64}
    (h : ofWindow memory offset count = .ok d) :
    memory = some d ∧ d.admits offset count = true := by
  unfold ofWindow at h
  split at h
  · simp at h
  · split at h
    · next hd => exact ⟨congrArg some (Except.ok.inj h), Except.ok.inj h ▸ hd⟩
    · simp at h

theorem put_nil (d : Destination) (offset : Nat) : d.put offset [] = d := by
  rw [put, List.append_nil, List.length_nil, Nat.add_zero, List.take_append_drop]

/-- Bytes written behind others are written with them. -/
theorem put_put (d : Destination) (offset : Nat) (a b : Bytes) :
    (d.put offset a).put (offset + a.length) b = d.put offset (a ++ b) := by
  have hend : offset + (a ++ b).length = offset + a.length + b.length := by
    rw [List.length_append, Nat.add_assoc]
  simp only [put, mk.injEq, true_and, hend, ← List.append_assoc]
  rcases Nat.le_total offset d.cells.length with h | h
  · have hlength : (d.cells.take offset ++ a).length = offset + a.length := by
      rw [List.length_append, List.length_take_of_le h]
    rw [← List.drop_drop (j := offset + a.length), List.drop_left' hlength,
      List.take_left' hlength, List.drop_drop]
  · -- the memory ends before the window begins
    have hlength : (d.cells.take offset ++ a).length ≤ offset + a.length := by
      rw [List.length_append, List.length_take]
      omega
    have hnone (n : Nat) : d.cells.drop (offset + a.length + n) = [] :=
      List.drop_eq_nil_of_le (by omega)
    rw [hnone b.length, ← Nat.add_zero (offset + a.length), hnone 0, List.append_nil, Nat.add_zero,
      List.take_of_length_le hlength, List.drop_eq_nil_of_le (by omega)]

/-- Behind the first bytes of a window there is the rest of it. -/
theorem admits_put {d : Destination} {offset count : UInt64} (h : d.admits offset count = true)
    (b : Bytes) {k : Nat} (hk : k ≤ count.toNat) :
    (d.put offset.toNat b).admits (offset + .ofNat k) (count - .ofNat k) = true := by
  rw [admits_iff] at h ⊢
  have hsize : (d.put offset.toNat b).size = d.size := rfl
  have hlimit := d.size.toNat_lt
  rw [hsize, toNat_sub_ofNat hk, toNat_add_ofNat (by simp only [UInt64.size]; omega)]
  omega

end Destination

/-! ## Queries -/

/-- What a client can want to know that does not depend on how a block is cut. -/
inductive Query where
  | byte
  /-- Reading in sequence until a window is full or the stream is at its end. -/
  | fill (memory : Option Destination) (offset count : UInt64)
  | readAt (target : Int64) (memory : Option Destination) (offset count : UInt64)
  | remaining
  | position
  | seek (target : Int64)
  | skip (n : Int64)
  deriving DecidableEq, Repr

namespace Query

/-- The arguments of a query are in order: there is memory and the window lies within it, and a
target is from the start to the declared end. -/
def InOrder (length : UInt64) : Query → Prop
  | fill memory offset count | readAt _ memory offset count =>
    ∃ d, memory = some d ∧ d.admits offset count = true
  | seek target => 0 ≤ target.toInt ∧ target.toInt ≤ length.toNat
  | _ => True

end Query

namespace Stream

variable {W R : Type} [Journaled W]

/-- Reads into a window until it is full or the stream is at its end.  Gives the number of bytes
read.  A read that gives none of the bytes that are wanted, or more of them, ends the loop. -/
def fillWindow (src : Source W R) (memory : Option Destination) (offset count : UInt64)
    (s : Stream R) (w : W) : Except Failure Nat × Option Destination × Stream R × W :=
  if count = 0 then (.ok 0, memory, s, w)
  else
    match s.readInto src memory offset count w with
    | (.error f, memory, s, w) => (.error f, memory, s, w)
    | (.ok none, memory, s, w) => (.ok 0, memory, s, w)
    | (.ok (some k), memory, s, w) =>
      if 0 < k ∧ k < count.toNat then
        match fillWindow src memory (offset + UInt64.ofNat k) (count - UInt64.ofNat k) s w with
        | (.error f, memory, s, w) => (.error f, memory, s, w)
        | (.ok m, memory, s, w) => (.ok (k + m), memory, s, w)
      else (.ok k, memory, s, w)
termination_by count.toNat
decreasing_by
  rename_i h
  rw [toNat_sub_ofNat (Nat.le_of_lt h.2)]
  exact Nat.sub_lt (Nat.lt_trans h.1 h.2) h.1

/-- Makes a query. -/
def ask (src : Source W R) (q : Query) (p : Stream R × W) : Outcome × Stream R × W :=
  match q with
  | .byte => perform src .readByte p.1 p.2
  | .fill memory offset count =>
    match fillWindow src memory offset count p.1 p.2 with
    | (result, memory, s, w) => ({ result := result.map fun n => .count (some n), memory }, s, w)
  | .readAt target memory offset count => perform src (.readAt target memory offset count) p.1 p.2
  | .remaining => perform src .remaining p.1 p.2
  | .position => perform src .position p.1 p.2
  | .seek target => perform src (.seek target) p.1 p.2
  | .skip n => perform src (.skip n) p.1 p.2

/-- The queries of a run and the answers to them. -/
def replies (src : Source W R) : List Query → Stream R × W → List (Query × Outcome)
  | [], _ => []
  | q :: qs, p => (q, (ask src q p).1) :: replies src qs (ask src q p).2

end Stream

/-! ## What a cursor replies -/

namespace Cursor

variable (block : Bytes) (id length : UInt64)

/-- The next bytes from a cursor, up to so many. -/
def ahead (c : Cursor) (n : Nat) : Bytes := ((block.take length.toNat).drop c.position).take n

/-- The cursor behind these bytes.  That they were fewer than was asked for means that the end was
met. -/
def passed (c : Cursor) (n : Nat) : Cursor where
  position := c.position + (c.ahead block length n).length
  ended := c.ended || (c.ahead block length n).length < n

/-- The answer to a query, and the cursor afterwards. -/
def reply (c : Cursor) : Query → Stream.Outcome × Cursor
  | .byte =>
    match (block.take length.toNat)[c.position]? with
    | none => ({ result := .ok (.byte none) }, { c with ended := true })
    | some b => ({ result := .ok (.byte (some b)) }, { c with position := c.position + 1 })
  | .fill memory offset count =>
    if count = 0 then ({ result := .ok (.count (some 0)), memory }, c)
    else
      match Destination.ofWindow memory offset count with
      | .error f => ({ result := .error f, memory }, c)
      | .ok d =>
        let b := c.ahead block length count.toNat
        ({ result := .ok (.count (some b.length)), memory := some (d.put offset.toNat b) },
          c.passed block length count.toNat)
  | .readAt target memory offset count =>
    match Destination.ofWindow memory offset count with
    | .error f => ({ result := .error f, memory }, c)
    | .ok d =>
      if count = 0 then
        ({ result := .ok (.count (some 0)), memory := some d }, c)
      else if target < 0 || length ≤ target.toUInt64 then
        ({ result := .ok (.count none), memory := some d }, c)
      else
        let b := range block target.toUInt64 count
        ({ result := .ok (.count (Stream.countOf b)), memory := some (d.put offset.toNat b) }, c)
  | .remaining => ({ result := .ok (.amount (.ofNat (c.remaining length.toNat))) }, c)
  | .position => ({ result := .ok (.position (.ofNat c.position)) }, c)
  | .seek target =>
    if target < 0 then ({ result := .error (.misuse (.seekBeforeStart target)) }, c)
    else if length < target.toUInt64 then
      ({ result := .error (.misuse (.seekPastEnd target.toUInt64 id length)) }, c)
    else ({ result := .ok .done }, c.moved target.toUInt64.toNat)
  | .skip n =>
    let k := min (c.remaining length.toNat) (max n.toInt 0).toNat
    ({ result := .ok (.amount (.ofNat k)) }, { c with position := c.position + k })

/-- The queries of a run and a cursor's answers to them. -/
def replies : Cursor → List Query → List (Query × Stream.Outcome)
  | _, [] => []
  | c, q :: qs => (q, (c.reply block id length q).1) :: replies (c.reply block id length q).2 qs

section

variable {block : Bytes} {length : UInt64} {c : Cursor}

theorem length_ahead (n : Nat) : (c.ahead block length n).length =
    min n (finish block length.toNat - c.position) := by
  rw [ahead, List.length_take, List.length_drop, List.length_take, finish]

theorem ahead_zero : c.ahead block length 0 = [] := List.take_zero

theorem ahead_eq_nil {n : Nat} (h : finish block length.toNat ≤ c.position) :
    c.ahead block length n = [] := by
  rw [← List.length_eq_zero_iff, length_ahead]
  omega

/-- What is ahead, as bytes of the block. -/
theorem ahead_of_le {n : Nat} (h : c.position + n ≤ finish block length.toNat) :
    c.ahead block length n = (block.drop c.position).take n := by
  have hdeclared : finish block length.toNat ≤ length.toNat := Nat.min_le_left ..
  rw [ahead, List.drop_take, List.take_take, Nat.min_eq_left (by omega)]

theorem passed_of_le {n : Nat} (h : c.position + n ≤ finish block length.toNat) :
    c.passed block length n = { c with position := c.position + n } := by
  have hlength : (c.ahead block length n).length = n := by
    rw [length_ahead]
    omega
  simp [passed, hlength]

theorem passed_of_ended {n : Nat} (hn : 0 < n) (h : finish block length.toNat ≤ c.position) :
    c.passed block length n = { c with ended := true } := by
  simp [passed, ahead_eq_nil h, hn]

/-- What is ahead comes in two parts. -/
theorem ahead_add (n m : Nat) : c.ahead block length (n + m) =
    c.ahead block length n ++
      ({ c with position := c.position + n } : Cursor).ahead block length m := by
  rw [ahead, List.take_add, List.drop_drop]
  rfl

theorem passed_add {n : Nat} (h : c.position + n ≤ finish block length.toNat) (m : Nat) :
    c.passed block length (n + m) =
      ({ c with position := c.position + n } : Cursor).passed block length m := by
  have hlength : (c.ahead block length n).length = n := by
    rw [length_ahead]
    omega
  simp only [passed, ahead_add, List.length_append, hlength, Nat.add_assoc,
    Nat.add_lt_add_iff_left]

/-! ### Single calls

A call in sequence can do to a cursor only what the query that makes it replies. -/

variable {id : UInt64} {o : Stream.Outcome} {c' : Cursor}

theorem Does.reply_byte (h : Does block length.toNat c .readByte o c') :
    c.reply block id length .byte = (o, c') := by
  have hdeclared : finish block length.toNat = (block.take length.toNat).length :=
    List.length_take.symm
  cases h with
  | byte b hlt hb =>
    have hbyte : (block.take length.toNat)[c.position]? = some b := by
      rw [List.getElem?_take_of_lt (Nat.lt_of_lt_of_le hlt (Nat.min_le_left ..)), hb]
    simp only [reply, hbyte]
  | byteEnded hend =>
    have hnone : (block.take length.toNat)[c.position]? = none :=
      List.getElem?_eq_none (hdeclared ▸ hend)
    simp only [reply, hnone]

theorem Does.reply_remaining (h : Does block length.toNat c .remaining o c') :
    c.reply block id length .remaining = (o, c') := by
  cases h with
  | remaining n hn => rw [reply, eq_ofNat hn]

theorem Does.reply_position (h : Does block length.toNat c .position o c') :
    c.reply block id length .position = (o, c') := by
  cases h with
  | position p hp => rw [reply, ← hp, UInt64.ofNat_toNat]

theorem Does.reply_seek {target : Int64} (hneg : ¬target < 0) (hpast : ¬length < target.toUInt64)
    (h : Does block length.toNat c (.seek target) o c') :
    c.reply block id length (.seek target) = (o, c') := by
  have hstart : 0 ≤ target.toInt := by
    rw [neg_iff] at hneg
    omega
  have hnat := toNat_toUInt64 hstart
  cases h with
  | seek =>
    have hto : target.toInt.toNat = target.toUInt64.toNat := by omega
    rw [reply, if_neg hneg, if_neg hpast, hto]
  | seekRefused m hout =>
    rw [toNat_lt_iff hstart] at hpast
    omega

theorem Does.reply_skip {n : Int64} (h : Does block length.toNat c (.skip n) o c') :
    c.reply block id length (.skip n) = (o, c') := by
  cases h with
  | skip m hm =>
    have hpassed : m.toInt = (min (c.remaining length.toNat) (max n.toInt 0).toNat : Nat) := by
      omega
    rw [hpassed, eq_ofNat hpassed]
    rfl

end

end Cursor

/-! ## Answers -/

/-- What a reader owes stays as it is while a positioned read goes on, which has a reader of its
own. -/
def Source.Conforming.Detached {W R : Type} [Journaled W] {src : Source W R} {S : Bytes}
    (c : src.Conforming S) : Prop :=
  ∀ {r w b e} (s : Stream R) (target : Int64) (count : UInt64), c.Owes r w b e →
    c.Owes r (s.readAt src target count w).2.2 b e

namespace Stream

variable {W R : Type} [Journaled W] {src : Source W R} {S : Bytes} {id length : UInt64}
  {c : src.Conforming S} {k : Cursor} {p : Stream R × W}

/-- A stream over a block that stands where a cursor is. -/
structure Stands (c : src.Conforming S) (id length : UInt64) (k : Cursor) (p : Stream R × W) : Prop
    extends Ready c length p where
  cursor : cursorOf p.1 = k
  block : p.1.block = id

theorem stands_start (c : src.Conforming S) {w : W} (hw : c.Fair w) (id length : UInt64) :
    Stands c id length {} (start id length, w) :=
  ⟨ready_start c hw, rfl, rfl⟩

theorem Stands.destination?_eq (h : Stands c id length k p) (memory : Option Destination)
    (offset count : UInt64) :
    p.1.destination? memory offset count = Destination.ofWindow memory offset count := by
  have hopen : p.1.closed = false := h.isOpen
  unfold destination?
  rw [if_neg (by simp [hopen])]
  rfl

/-- A call in sequence moves the stream as it moves the cursor. -/
theorem Stands.step (hL : length.toNat < signedLimit) (h : Stands c id length k p) (op : Op)
    (hop : op.sequential = true) : ∃ k', Cursor.Does S length.toNat k op
      (Stream.step src op p).outcome k' ∧ Stands c id length k' (Stream.step src op p).after := by
  obtain ⟨hready, rfl, hblock⟩ := h
  obtain ⟨hdoes, hafter⟩ := hready.step hL hop
  have hclose : op ≠ .close := by
    rintro rfl
    simp [Op.sequential] at hop
  have hkeeps := step_keeps src hclose hready.tidy
  exact ⟨_, hdoes, hafter, rfl, hkeeps.1.trans hblock⟩

/-- A read into a window that is in order gives what the cursor reads. -/
theorem Stands.readInto (h : Stands c id length k p) {d : Destination} {offset count : UInt64}
    (hd : d.admits offset count = true) : ∃ b k' s' w',
      p.1.readInto src (some d) offset count p.2 =
        (.ok (b.map List.length), some (b.elim d (d.put offset.toNat)), s', w') ∧
      Cursor.Reads S length.toNat k count.toNat b k' ∧ Stands c id length k' (s', w') := by
  have hwindow : p.1.destination? (some d) offset count = .ok d := by
    rw [h.destination?_eq, Destination.ofWindow, if_pos hd]
  obtain ⟨hready, rfl, hblock⟩ := h
  obtain ⟨b, s', w', hr, hreads, hafter⟩ := hready.readSome count
  have hsame : s'.block = p.1.block := by
    rcases readSome_cases hr with ⟨-, -, hs⟩ | ⟨-, -, -, hs⟩ | ⟨-, -, hf⟩
    · rw [hs]
    · rw [hs]
    · exact (fetched hready.tidy hf).keeps.1
  refine ⟨b, _, s', w', ?_, hreads, hafter, rfl, hsame.trans hblock⟩
  unfold Stream.readInto
  rw [hwindow]
  dsimp only
  rw [hr]
  cases b <;> rfl

/-- **A window is filled with what is ahead of the cursor**, however the source cuts it. -/
theorem Stands.fillWindow {k : Cursor} {p : Stream R × W} (h : Stands c id length k p)
    {d : Destination} {offset count : UInt64} (hd : d.admits offset count = true) : ∃ s' w',
      Stream.fillWindow src (some d) offset count p.1 p.2 =
        (.ok (k.ahead S length count.toNat).length,
          some (d.put offset.toNat (k.ahead S length count.toNat)), s', w') ∧
      Stands c id length (k.passed S length count.toNat) (s', w') := by
  unfold Stream.fillWindow
  by_cases hzero : count = 0
  · have hfinish : k.passed S length 0 = k := by simp [Cursor.passed, Cursor.ahead_zero]
    subst hzero
    refine ⟨p.1, p.2, ?_, hfinish.symm ▸ h⟩
    rw [if_pos rfl, UInt64.toNat_zero, Cursor.ahead_zero, Destination.put_nil]
    rfl
  rw [if_neg hzero]
  obtain ⟨b, k', s₁, w₁, hr, hreads, hafter⟩ := h.readInto hd
  rw [hr]
  cases hreads with
  | nothing hn => exact absurd (UInt64.toNat_inj.1 hn) hzero
  | ended hn hend =>
    refine ⟨s₁, w₁, ?_, Cursor.passed_of_ended hn hend ▸ hafter⟩
    rw [Cursor.ahead_eq_nil hend, Destination.put_nil]
    rfl
  | bytes n hpos hle hfinish =>
    rw [← Cursor.ahead_of_le hfinish]
    have hlength : (k.ahead S length n).length = n := by
      rw [Cursor.length_ahead]
      omega
    simp only [Option.map_some, Option.elim_some, hlength]
    by_cases hless : n < count.toNat
    · -- the window is not full, and what is read next goes behind what was read
      obtain ⟨m, hm⟩ := Nat.exists_eq_add_of_le hle
      have hrest : (count - .ofNat n).toNat = m := by
        rw [toNat_sub_ofNat hle]
        omega
      have hoffset : (offset + .ofNat n).toNat = offset.toNat + (k.ahead S length n).length := by
        rw [Destination.admits_iff] at hd
        have hlimit := d.size.toNat_lt
        rw [hlength]
        exact toNat_add_ofNat (by simp only [UInt64.size]; omega)
      obtain ⟨s', w', hfill, hstands⟩ :=
        hafter.fillWindow (Destination.admits_put hd (k.ahead S length n) hle)
      rw [hrest, hoffset, Destination.put_put] at hfill
      rw [hrest] at hstands
      rw [if_pos ⟨hpos, hless⟩, hfill, hm]
      refine ⟨s', w', ?_, Cursor.passed_add hfinish m ▸ hstands⟩
      rw [Cursor.ahead_add, List.length_append, hlength]
    · obtain rfl : n = count.toNat := Nat.le_antisymm hle (Nat.le_of_not_lt hless)
      rw [if_neg (by omega)]
      refine ⟨s₁, w₁, ?_, Cursor.passed_of_le hfinish ▸ hafter⟩
      rw [hlength]
termination_by count.toNat
decreasing_by
  rw [toNat_sub_ofNat (Nat.le_of_lt hless)]
  exact Nat.sub_lt (Nat.lt_trans hpos hless) hpos

/-! ### Queries one by one -/

/-- A query that is a single call is answered by the cursor, if the call can do nothing else to
it. -/
theorem Stands.ask_of_does (hL : length.toNat < signedLimit) (h : Stands c id length k p)
    {q : Query} (op : Op) (hop : op.sequential = true)
    (hask : Stream.ask src q p = perform src op p.1 p.2)
    (hdoes : ∀ {o k'}, Cursor.Does S length.toNat k op o k' → k.reply S id length q = (o, k')) :
    (Stream.ask src q p).1 = (k.reply S id length q).1 ∧
      Stands c id length (k.reply S id length q).2 (Stream.ask src q p).2 := by
  obtain ⟨k', hcall, hafter⟩ := h.step hL op hop
  rw [hask, hdoes hcall]
  exact ⟨rfl, hafter⟩

theorem Stands.ask_fill (h : Stands c id length k p) (memory : Option Destination)
    (offset count : UInt64) :
    (ask src (.fill memory offset count) p).1 =
        (k.reply S id length (.fill memory offset count)).1 ∧
      Stands c id length (k.reply S id length (.fill memory offset count)).2
        (ask src (.fill memory offset count) p).2 := by
  by_cases hzero : count = 0
  · have hfill : Stream.fillWindow src memory offset count p.1 p.2 = (.ok 0, memory, p) := by
      unfold Stream.fillWindow
      rw [if_pos hzero]
    simp only [ask, Cursor.reply, hfill, if_pos hzero]
    exact ⟨rfl, h⟩
  cases hwindow : Destination.ofWindow memory offset count with
  | error f =>
    have hfill : Stream.fillWindow src memory offset count p.1 p.2 = (.error f, memory, p) := by
      unfold Stream.fillWindow Stream.readInto
      rw [if_neg hzero, h.destination?_eq, hwindow]
    simp only [ask, Cursor.reply, hfill, if_neg hzero, hwindow]
    exact ⟨rfl, h⟩
  | ok d =>
    obtain ⟨rfl, hd⟩ := Destination.ofWindow_eq_ok hwindow
    obtain ⟨s', w', hfill, hafter⟩ := h.fillWindow hd
    simp only [ask, Cursor.reply, hfill, if_neg hzero, hwindow]
    exact ⟨rfl, hafter⟩

/-- A read at a position leaves the stream where it is, if the readers have nothing to do with each
other. -/
theorem Stands.ask_readAt (hc : c.Detached) (h : Stands c id length k p) (target : Int64)
    (memory : Option Destination) (offset count : UInt64) :
    (ask src (.readAt target memory offset count) p).1 =
        (k.reply S id length (.readAt target memory offset count)).1 ∧
      Stands c id length (k.reply S id length (.readAt target memory offset count)).2
        (ask src (.readAt target memory offset count) p).2 := by
  have hopen : p.1.closed = false := h.isOpen
  have hlength : p.1.length = length := h.length_eq
  simp only [ask, perform, readAtInto, Cursor.reply, h.destination?_eq]
  cases hwindow : Destination.ofWindow memory offset count with
  | error f => exact ⟨rfl, h⟩
  | ok d =>
    dsimp only
    by_cases hzero : count = 0
    · have hread : p.1.readAt src target count p.2 = (.ok (some 0), [], p.2) := by
        unfold readAt
        rw [if_neg (by simp [hopen]), if_pos hzero]
      rw [hread, if_pos hzero]
      dsimp only
      rw [Destination.put_nil]
      exact ⟨rfl, h⟩
    rw [if_neg hzero]
    by_cases hpast : (target < 0 || length ≤ target.toUInt64) = true
    · have hread : p.1.readAt src target count p.2 = (.ok none, [], p.2) := by
        unfold readAt
        rw [if_neg (by simp [hopen]), if_neg hzero, hlength, if_pos hpast]
      rw [hread, if_pos hpast]
      dsimp only
      rw [Destination.put_nil]
      exact ⟨rfl, h⟩
    rw [if_neg hpast]
    obtain ⟨w', hread, hfair⟩ := readAt_of_lt c hopen h.fair hzero (hlength ▸ hpast)
    have howes {r b e} (ho : c.Owes r p.2 b e) : c.Owes r w' b e := by
      have hafter := hc p.1 target count ho
      rwa [hread] at hafter
    rw [hread]
    exact ⟨rfl, { h with
      fair := hfair
      owes := fun r hr => (h.owes r hr).imp fun b hb => ⟨howes hb.1, hb.2⟩ }⟩

theorem Stands.ask_seek (hL : length.toNat < signedLimit) (h : Stands c id length k p)
    (target : Int64) :
    (ask src (.seek target) p).1 = (k.reply S id length (.seek target)).1 ∧
      Stands c id length (k.reply S id length (.seek target)).2 (ask src (.seek target) p).2 := by
  have hopen : p.1.closed = false := h.isOpen
  have hlength : p.1.length = length := h.length_eq
  by_cases hneg : target < 0
  · have hseek : p.1.seek src target p.2 = (.error (.misuse (.seekBeforeStart target)), p) := by
      rw [seek, if_neg (by simp [hopen]), if_pos hneg]
    simp only [ask, perform, hseek, Cursor.reply, if_pos hneg]
    exact ⟨rfl, h⟩
  by_cases hpast : length < target.toUInt64
  · have hseek : p.1.seek src target p.2 =
        (.error (.misuse (.seekPastEnd target.toUInt64 id length)), p) := by
      rw [seek, if_neg (by simp [hopen]), if_neg hneg, hlength, if_pos hpast, h.block]
    simp only [ask, perform, hseek, Cursor.reply, if_neg hneg, if_pos hpast]
    exact ⟨rfl, h⟩
  exact h.ask_of_does hL (.seek target) rfl rfl (Cursor.Does.reply_seek hneg hpast)

/-- A move to a place up to the declared end is made. -/
theorem Stands.seek (hL : length.toNat < signedLimit) (h : Stands c id length k p) {target : Int64}
    (hneg : ¬target < 0) (hpast : ¬length < target.toUInt64) : ∃ s w',
      p.1.seek src target p.2 = (.ok (), s, w') ∧
      Stands c id length (k.moved target.toUInt64.toNat) (s, w') := by
  have hask := h.ask_seek hL target
  rcases hs : p.1.seek src target p.2 with ⟨x, s, w'⟩
  simp only [ask, perform, hs, Cursor.reply, if_neg hneg, if_neg hpast] at hask
  obtain ⟨hresult, hstands⟩ := hask
  cases x with
  | error f => simp [Except.map] at hresult
  | ok => exact ⟨s, w', rfl, hstands⟩

/-- **A query is answered by the cursor.** -/
theorem Stands.ask (hL : length.toNat < signedLimit) (hc : c.Detached)
    (h : Stands c id length k p) (q : Query) :
    (Stream.ask src q p).1 = (k.reply S id length q).1 ∧
      Stands c id length (k.reply S id length q).2 (Stream.ask src q p).2 := by
  cases q with
  | byte => exact h.ask_of_does hL .readByte rfl rfl Cursor.Does.reply_byte
  | fill memory offset count => exact h.ask_fill memory offset count
  | readAt target memory offset count => exact h.ask_readAt hc target memory offset count
  | remaining => exact h.ask_of_does hL .remaining rfl rfl Cursor.Does.reply_remaining
  | position => exact h.ask_of_does hL .position rfl rfl Cursor.Does.reply_position
  | seek target => exact h.ask_seek hL target
  | skip n => exact h.ask_of_does hL (.skip n) rfl rfl Cursor.Does.reply_skip

/-! ### Runs of queries -/

/-- **Answers do not depend on the source.**  A stream over a source that delivers the block, of a
declared length below 2^63, answers any queries as a cursor over the block does, however the source
cuts the block into packets. -/
theorem Stands.replies (hL : length.toNat < signedLimit) (hc : c.Detached)
    (h : Stands c id length k p) (qs : List Query) :
    Stream.replies src qs p = k.replies S id length qs := by
  induction qs generalizing k p with
  | nil => rfl
  | cons q qs ih =>
    obtain ⟨hanswer, hafter⟩ := h.ask hL hc q
    rw [Stream.replies, Cursor.replies, hanswer, ih hafter]

end Stream

/-- A query whose arguments are in order is answered. -/
theorem Cursor.reply_ok {S : Bytes} {id length : UInt64} (k : Cursor) {q : Query}
    (hq : q.InOrder length) : ∃ a, (k.reply S id length q).1.result = .ok a := by
  cases q with
  | byte =>
    simp only [reply]
    split <;> exact ⟨_, rfl⟩
  | fill memory offset count =>
    obtain ⟨d, rfl, hd⟩ := hq
    simp only [reply, Destination.ofWindow, if_pos hd]
    split <;> exact ⟨_, rfl⟩
  | readAt target memory offset count =>
    obtain ⟨d, rfl, hd⟩ := hq
    simp only [reply, Destination.ofWindow, if_pos hd]
    split
    · exact ⟨_, rfl⟩
    · split <;> exact ⟨_, rfl⟩
  | seek target =>
    obtain ⟨hstart, hend⟩ := hq
    have hneg : ¬target < 0 := by
      rw [neg_iff]
      omega
    have hpast : ¬length < target.toUInt64 := by
      rw [toNat_lt_iff hstart]
      omega
    simp only [reply, if_neg hneg, if_neg hpast]
    exact ⟨_, rfl⟩
  | remaining | position | skip => exact ⟨_, rfl⟩

end BlockAccess

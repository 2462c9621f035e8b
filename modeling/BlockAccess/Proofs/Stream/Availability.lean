import BlockAccess.Proofs.Stream.Buffered

/-!
# What a buffer promises

A buffer over a stream says how many bytes can be had: those that it holds, or, if it holds none,
those that the stream has left in front of its declared end.  The first number is always kept to.
The second is kept to if the block is not shorter than declared; if it is, what is there is given
and then the end.  If a buffer says that there is nothing, there is nothing.  `available_history`
says so for every state that a client can bring a buffer into.

A client may also step back, which `Buffered` has nothing to say about.  `Holding` is the stronger
invariant: all that a buffer holds, taken or not, is the piece of the block that begins where the
last read began.  A `Use` of the buffer keeps it, with the same beginning or, after another
read or a move, with a new one.
-/

namespace BlockAccess.StreamBuffer

open Offset

/-- What a client does with a buffer. -/
inductive Use where
  | call (call : Call)
  /-- Takes a byte and looks at the one behind it. -/
  | next
  /-- Steps back by a byte. -/
  | back
  deriving DecidableEq, Repr

variable {W R : Type} [Journaled W]

/-- Makes use of a buffer. -/
def use (src : Source W R) (u : Use) (p : StreamBuffer × Stream R × W) :
    Except Failure Reply × StreamBuffer × Stream R × W :=
  match u, p with
  | .call call, p => perform src call p
  | .next, (b, s, w) => let r := b.takePeek src s w; (r.1.map .byte, r.2)
  | .back, (b, s, w) => (.ok (.byte b.back.1), b.back.2, s, w)

/-- The place in the block of the next byte that a buffer gives. -/
def placeOf (p : StreamBuffer × Stream R × W) : Nat := p.2.1.position.toNat - p.1.ahead.length

/-- The replies to taking bytes one by one. -/
def taken (src : Source W R) (k : Nat) (p : StreamBuffer × Stream R × W) :
    List (Except Failure Reply) :=
  (acts (perform src) (List.replicate k .take) p).map Act.result

/-! ## What a buffer holds -/

variable {src : Source W R} {S : Bytes} {length : UInt64} {c : src.Conforming S} {start place : Nat}
  {b : StreamBuffer} {s : Stream R} {w : W}

/-- A buffer over a stream that is ready.  What it holds is the piece of the block from a start on,
and the stream is past it. -/
structure Holding (c : src.Conforming S) (length : UInt64) (start : Nat)
    (p : StreamBuffer × Stream R × W) : Prop extends Stream.Ready c length p.2 where
  size_pos : 0 < p.1.size.toNat
  held : p.1.behind.reverse ++ p.1.ahead <+: (readable S length.toNat).drop start
  position_eq : p.2.1.position.toNat = start + (p.1.behind.length + p.1.ahead.length)

/-- A buffer that holds a piece of the block is at the place behind what is taken. -/
theorem Holding.buffered (h : Holding c length start (b, s, w)) :
    Buffered c length (start + b.behind.length) (b, s, w) where
  toReady := h.toReady
  size_pos := h.size_pos
  ahead := by
    obtain ⟨rest, hrest⟩ := h.held
    refine ⟨rest, ?_⟩
    show b.ahead ++ rest = _
    rw [← List.drop_drop, ← hrest, List.append_assoc, ← List.length_reverse, List.drop_left]
  position_eq := h.position_eq.trans (Nat.add_assoc ..).symm

/-- A buffer that holds nothing behind its place. -/
theorem Buffered.holding (h : Buffered c length place (b, s, w)) (hbehind : b.behind = []) :
    Holding c length place (b, s, w) where
  toReady := h.toReady
  size_pos := h.size_pos
  held := by
    rw [hbehind]
    exact h.ahead
  position_eq := by
    rw [hbehind, List.length_nil, Nat.zero_add]
    exact h.position_eq

theorem Buffered.placeOf_eq {p : StreamBuffer × Stream R × W} (h : Buffered c length place p) :
    placeOf p = place := by
  rw [placeOf, h.position_eq, Nat.add_sub_cancel]

/-! ## Using a buffer -/

/-- Taking what is held moves the divide. -/
theorem Holding.bumpMany (h : Holding c length start (b, s, w)) (n : Nat) :
    Holding c length start (b.bumpMany n, s, w) where
  toReady := h.toReady
  size_pos := h.size_pos
  held := by
    have hsame : (b.bumpMany n).behind.reverse ++ (b.bumpMany n).ahead =
        b.behind.reverse ++ b.ahead := by
      simp [StreamBuffer.bumpMany]
    exact hsame ▸ h.held
  position_eq := by
    have hposition : s.position.toNat = start + (b.behind.length + b.ahead.length) := h.position_eq
    show s.position.toNat = start + ((b.bumpMany n).behind.length + (b.bumpMany n).ahead.length)
    rw [hposition, StreamBuffer.bumpMany]
    simp only [List.length_append, List.length_reverse, List.length_take, List.length_drop]
    omega

/-- Stepping back moves it the other way. -/
theorem Holding.back (h : Holding c length start (b, s, w)) :
    Holding c length start (b.back.2, s, w) := by
  unfold StreamBuffer.back
  cases hbehind : b.behind with
  | nil => exact h
  | cons a rest =>
    have hheld := h.held
    have hposition : s.position.toNat = start + (b.behind.length + b.ahead.length) := h.position_eq
    rw [hbehind, List.reverse_cons, List.append_assoc, List.singleton_append] at hheld
    rw [hbehind, List.length_cons] at hposition
    refine ⟨h.toReady, h.size_pos, hheld, ?_⟩
    show s.position.toNat = start + (rest.length + (b.ahead.length + 1))
    omega

/-- A use of a buffer that succeeded, and what is held afterwards is a piece of the block. -/
def Succeeds (c : src.Conforming S) (length : UInt64) {α : Type}
    (r : Except Failure α × StreamBuffer × Stream R × W) : Prop :=
  ∃ x start b s w, r = (.ok x, b, s, w) ∧ Holding c length start (b, s, w)

theorem Holding.peek (h : Holding c length start (b, s, w)) :
    Succeeds c length (b.peek src s w) := by
  unfold StreamBuffer.peek
  cases hahead : b.ahead with
  | cons a rest => exact ⟨_, start, b, s, w, rfl, h⟩
  | nil =>
    rcases h.buffered.refill hahead with ⟨s', w', hr, -, hafter⟩ | ⟨a, rest, s', w', hr, hafter⟩
    · rw [hr]
      refine ⟨none, start, b, s', w', rfl, hafter.toReady, h.size_pos, h.held, ?_⟩
      exact hafter.position_eq.trans (Nat.add_assoc ..)
    · rw [hr]
      exact ⟨_, _, _, s', w', rfl, hafter.holding rfl⟩

theorem Holding.take (h : Holding c length start (b, s, w)) :
    Succeeds c length (b.take src s w) := by
  obtain ⟨x, start', b', s', w', hpeek, hafter⟩ := h.peek
  unfold StreamBuffer.take
  rw [hpeek]
  cases x with
  | none => exact ⟨none, start', b', s', w', rfl, hafter⟩
  | some a => exact ⟨some a, start', b'.bump, s', w', rfl, bump_eq b' ▸ hafter.bumpMany 1⟩

theorem Holding.takePeek (h : Holding c length start (b, s, w)) :
    Succeeds c length (b.takePeek src s w) := by
  obtain ⟨x, start', b', s', w', htake, hafter⟩ := h.take
  unfold StreamBuffer.takePeek
  rw [htake]
  cases x with
  | none => exact ⟨none, start', b', s', w', rfl, hafter⟩
  | some a => exact hafter.peek

theorem Holding.takePieces {n : Nat} (got : List Bytes) {start : Nat} {b : StreamBuffer}
    {s : Stream R} {w : W} (h : Holding c length start (b, s, w)) :
    Succeeds c length (takePieces src n got b s w) := by
  have hbumped := h.bumpMany n
  unfold StreamBuffer.takePieces
  by_cases hleft : n - (b.ahead.take n).length = 0
  · rw [dif_pos hleft]
    exact ⟨_, start, _, s, w, rfl, hbumped⟩
  · obtain ⟨x, start', b', s', w', htake, hafter⟩ := hbumped.take
    rw [dif_neg hleft, htake]
    cases x with
    | none => exact ⟨_, start', b', s', w', rfl, hafter⟩
    | some a => exact hafter.takePieces _
termination_by n

theorem Holding.takeMany (h : Holding c length start (b, s, w)) (n : Int64) :
    Succeeds c length (b.takeMany src n s w) := by
  obtain ⟨got, start', b', s', w', hpieces, hafter⟩ := h.takePieces (n := n.toInt.toNat) []
  unfold StreamBuffer.takeMany
  rw [hpieces]
  exact ⟨_, start', b', s', w', rfl, hafter⟩

omit [Journaled W] in
/-- A move leaves all alone, or what is held is given up. -/
theorem seek_cases {offset : Int64} {origin : Origin} {input : Bool} {x : Option Int64}
    {p : StreamBuffer × Stream R × W} (h : b.seek src offset origin input s w = (.ok x, p)) :
    p = (b, s, w) ∨ p.1 = b.emptied := by
  unfold StreamBuffer.seek at h
  split at h
  · exact .inl (congrArg Prod.snd h).symm
  split at h
  · exact .inl (congrArg Prod.snd h).symm
  split at h
  · exact .inl (congrArg Prod.snd h).symm
  split at h
  · exact .inl (congrArg Prod.snd h).symm
  split at h
  · simp at h
  · next s' w' _ =>
    have hp : (b.emptied, s', w') = p := congrArg Prod.snd h
    exact .inr (hp ▸ rfl)

theorem Holding.seek (hL : length.toNat < signedLimit) (h : Holding c length start (b, s, w))
    (offset : Int64) (origin : Origin) (input : Bool) :
    Succeeds c length (b.seek src offset origin input s w) := by
  obtain ⟨⟨b', s', w'⟩, hseek, hafter, -⟩ := h.buffered.seek hL offset origin input
  rw [hseek]
  rcases seek_cases hseek with hsame | hemptied
  · rw [hsame]
    exact ⟨_, start, b, s, w, rfl, h⟩
  · have hbehind : b'.behind = [] := congrArg StreamBuffer.behind hemptied
    exact ⟨_, _, b', s', w', rfl, hafter.holding hbehind⟩

theorem Succeeds.map {α β : Type} {r : Except Failure α × StreamBuffer × Stream R × W}
    (h : Succeeds c length r) (f : α → β) : Succeeds c length (r.1.map f, r.2) := by
  obtain ⟨x, start, b, s, w, rfl, h⟩ := h
  exact ⟨f x, start, b, s, w, rfl, h⟩

/-- **No use of a buffer fails**, and what it holds stays a piece of the block. -/
theorem Holding.use (hL : length.toNat < signedLimit) {p : StreamBuffer × Stream R × W}
    (h : Holding c length start p) (u : Use) : Succeeds c length (use src u p) := by
  obtain ⟨b, s, w⟩ := p
  cases u with
  | call call =>
    cases call with
    | peek => exact h.peek.map Reply.byte
    | take => exact h.take.map Reply.byte
    | takeMany n => exact (h.takeMany n).map Reply.bytes
    | seek offset origin input => exact (h.seek hL offset origin input).map Reply.position
  | next => exact h.takePeek.map Reply.byte
  | back => exact ⟨_, start, b.back.2, s, w, rfl, h.back⟩

theorem Holding.run (hL : length.toNat < signedLimit) {p : StreamBuffer × Stream R × W}
    (h : Holding c length start p) (uses : List Use) :
    ∃ start', Holding c length start' (endOf (StreamBuffer.use src) uses p) := by
  induction uses generalizing start p with
  | nil => exact ⟨start, h⟩
  | cons u uses ih =>
    obtain ⟨x, start', b, s, w, hu, hafter⟩ := h.use hL u
    have hend : endOf (StreamBuffer.use src) (u :: uses) p =
        endOf (StreamBuffer.use src) uses (b, s, w) := by
      rw [endOf, act, hu]
    rw [hend]
    exact ih hafter

/-! ## Taking bytes one by one -/

/-- Bytes that are taken one by one are those that follow a place, and there is none behind the
end. -/
theorem answers_replicate_take (block : Bytes) (length place k : Nat) :
    answers block length place (List.replicate k .take) =
      (List.range k).map fun i => .byte (readable block length)[place + i]? := by
  induction k generalizing place with
  | zero => rfl
  | succ k ih =>
    rw [List.replicate_succ, answers, ih, List.range_succ_eq_map, List.map_cons, List.map_map,
      Nat.add_zero, answer]
    cases hbyte : (readable block length)[place]? with
    | none =>
      have hnone (i : Nat) : (readable block length)[place + i]? = none :=
        List.getElem?_eq_none_iff.2 (Nat.le_add_right_of_le (List.getElem?_eq_none_iff.1 hbyte))
      refine congrArg _ (List.map_congr_left fun i _ => ?_)
      rw [Function.comp_apply, hnone, hnone]
    | some a =>
      refine congrArg _ (List.map_congr_left fun i _ => ?_)
      rw [Function.comp_apply, Nat.add_assoc, Nat.add_comm 1]

theorem Buffered.taken_eq (hL : length.toNat < signedLimit) {p : StreamBuffer × Stream R × W}
    (h : Buffered c length place p) (k : Nat) : taken src k p =
      (List.range k).map fun i => .ok (.byte (readable S length.toNat)[place + i]?) := by
  rw [taken, (h.run hL _).1, answers_replicate_take, List.map_map]
  rfl

/-- All of some bytes are there exactly if they end in front of both ends. -/
theorem forall_byte_iff {block : Bytes} {length place k : Nat} (hk : 0 < k) :
    (∀ r ∈ (List.range k).map fun i =>
        (.ok (.byte (readable block length)[place + i]?) : Except Failure Reply),
      ∃ a, r = .ok (.byte (some a))) ↔ place + k ≤ min length block.length := by
  have hlast : place + (k - 1) = place + k - 1 := by omega
  constructor
  · intro hall
    obtain ⟨a, ha⟩ := hall _ (List.mem_map_of_mem (List.mem_range.2 (Nat.sub_one_lt_of_lt hk)))
    have hnot : ¬min length block.length ≤ place + (k - 1) := by
      intro hle
      rw [(byte_eq_none_iff ..).2 hle] at ha
      simp at ha
    omega
  · intro hle r hr
    obtain ⟨i, hi, rfl⟩ := List.mem_map.1 hr
    rw [List.mem_range] at hi
    have hne : (readable block length)[place + i]? ≠ none := by
      rw [Ne, byte_eq_none_iff]
      omega
    obtain ⟨a, ha⟩ := Option.ne_none_iff_exists'.1 hne
    exact ⟨a, by rw [ha]⟩

/-! ## What can be had -/

/-- What it means that a buffer promises a number of bytes: as many as it holds, or, if it holds
none, as many as there are in front of the declared end.  Taking that many gives the bytes of the
block that follow, and nothing where there are no more of them, which does not happen but in the
second case and with a block that is shorter than declared. -/
structure Promise (src : Source W R) (S : Bytes) (length : Nat) (p : StreamBuffer × Stream R × W)
    (k : Nat) : Prop where
  pos : 0 < k
  amount : k = if p.1.ahead = [] then length - placeOf p else p.1.ahead.length
  replies : taken src k p =
    (List.range k).map fun i => .ok (.byte (readable S length)[placeOf p + i]?)
  kept_iff : (∀ r ∈ taken src k p, ∃ a, r = .ok (.byte (some a))) ↔
    p.1.ahead ≠ [] ∨ length ≤ S.length

theorem Buffered.promise (hL : length.toNat < signedLimit) {p : StreamBuffer × Stream R × W}
    (h : Buffered c length place p) {k : Nat} (hk : 0 < k)
    (hamount : k = if p.1.ahead = [] then length.toNat - placeOf p else p.1.ahead.length) :
    Promise src S length.toNat p k where
  pos := hk
  amount := hamount
  replies := h.placeOf_eq ▸ h.taken_eq hL k
  kept_iff := by
    rw [h.placeOf_eq] at hamount
    rw [h.taken_eq hL, forall_byte_iff hk]
    by_cases hahead : p.1.ahead = []
    · rw [if_pos hahead] at hamount
      simp only [hahead, ne_eq, not_true_eq_false, false_or]
      omega
    · rw [if_neg hahead] at hamount
      have hfront := h.ahead.length_le
      rw [List.length_drop, length_readable, Cursor.finish] at hfront
      simp only [hahead, ne_eq, not_false_eq_true, true_or, iff_true]
      omega

/-- A buffer that holds bytes tells their number. -/
theorem Buffered.available_of_ne (hL : length.toNat < signedLimit)
    (h : Buffered c length place (b, s, w)) (hahead : b.ahead ≠ []) :
    ∃ k, b.available s = .ok (some k) ∧ k.toInt.toNat = b.ahead.length := by
  have hposition : s.position.toNat = place + b.ahead.length := h.position_eq
  have hle : s.position.toNat ≤ length.toNat := h.position_le
  refine ⟨.ofNat b.ahead.length, ?_, ?_⟩
  · rw [available, if_neg (by simpa using hahead)]
  · have hheld : b.ahead.length ≤ length.toNat := by omega
    rw [toInt_ofNat_of_le hheld hL, Int.toNat_natCast]

/-- A buffer that holds none tells what the stream has left.  Where that is nothing, the stream is
at its end. -/
theorem Buffered.available_of_eq (hL : length.toNat < signedLimit)
    (h : Buffered c length place (b, s, w)) (hahead : b.ahead = []) :
    b.available s = .ok none ∧ min length.toNat S.length ≤ place ∨
      ∃ k, b.available s = .ok (some k) ∧ 0 < k.toInt.toNat ∧
        k.toInt.toNat = length.toNat - place := by
  have hopen : s.closed = false := h.isOpen
  have hplace : s.position.toNat = place := by
    have hposition : s.position.toNat = place + b.ahead.length := h.position_eq
    rwa [hahead, List.length_nil, Nat.add_zero] at hposition
  obtain ⟨left, hleft, hvalue⟩ := h.toReady.remaining_eq hL
  have hpromised : b.available s = .ok (if 0 < left then some left else none) := by
    rw [available, if_pos (by simpa using hahead), promised, if_neg (by simp [hopen]), hleft]
  rw [hpromised]
  simp only [Cursor.remaining, Stream.cursorOf, hplace] at hvalue
  by_cases hpos : 0 < left
  · rw [if_pos hpos]
    rw [Int64.lt_iff_toInt_lt, Int64.toInt_zero] at hpos
    refine .inr ⟨left, rfl, by omega, ?_⟩
    split at hvalue <;> omega
  · rw [if_neg hpos]
    rw [Int64.lt_iff_toInt_lt, Int64.toInt_zero] at hpos
    refine .inl ⟨rfl, ?_⟩
    by_cases hended : s.ended = true
    · exact hplace ▸ h.finish_le hended
    · rw [if_neg hended] at hvalue
      omega

/-- **A buffer keeps what it promises, as far as the block reaches.**  Over a source that delivers a
block, in whatever packets, for any declared length below 2^63 and after whatever use, a buffer
tells either how many bytes can be had, and this is a `Promise`, or that there are none, and then
the next look finds the end. -/
theorem available_history (hL : length.toNat < signedLimit) (c : src.Conforming S) (hw : c.Fair w)
    (block : UInt64) {ops : List Stream.Op} (hops : ∀ op ∈ ops, op.sequential = true)
    (size : UInt64) (uses : List Use) {p : StreamBuffer × Stream R × W}
    (hp : p = endOf (use src) uses
      (ofSize size, Stream.run src ops (Stream.start block length, w))) :
    (∃ k, p.1.available p.2.1 = .ok (some k) ∧ Promise src S length.toNat p k.toInt.toNat) ∨
      p.1.available p.2.1 = .ok none ∧ (perform src .peek p).1 = .ok (.byte none) := by
  obtain ⟨-, hready⟩ := (Stream.ready_start c hw).run hL hops
  have hfirst := (buffered_ofSize size hready).holding rfl
  obtain ⟨start, hholding⟩ := hfirst.run hL uses
  rw [← hp] at hholding
  obtain ⟨b, s, w'⟩ := p
  have hbuffered := hholding.buffered
  by_cases hahead : b.ahead = []
  · rcases hbuffered.available_of_eq hL hahead with ⟨hnone, hend⟩ | ⟨k, hsome, hpos, hk⟩
    · obtain ⟨p', hpeek, -, -⟩ := hbuffered.perform hL .peek
      refine .inr ⟨hnone, ?_⟩
      rw [hpeek, answer, (byte_eq_none_iff ..).2 hend]
    · refine .inl ⟨k, hsome, hbuffered.promise hL hpos ?_⟩
      rw [if_pos hahead, hbuffered.placeOf_eq, hk]
  · obtain ⟨k, hsome, hk⟩ := hbuffered.available_of_ne hL hahead
    have hpos : 0 < b.ahead.length := List.length_pos_iff.2 hahead
    exact .inl ⟨k, hsome, hbuffered.promise hL (hk ▸ hpos) (by rw [if_neg hahead, hk])⟩

/-- Bytes taken one by one, one of them given back. -/
def dither : List Use := [.call .peek, .next, .call .take, .back]

/-- A buffer of four bytes over a stream of pairs that is declared two bytes longer than it is. -/
def pairsBuffer (uses : List Use) : StreamBuffer × Stream ScriptedReader × Site :=
  endOf (use Stream.pairs.source) uses
    (ofSize 4, Stream.run Stream.pairs.source [.readByte] (Stream.start 1 7, {}))

/-- It gives the pair that it holds.  Moved to the last byte, it promises two more than there
are. -/
theorem available_history_pairs :
    (7 : UInt64).toNat < signedLimit ∧
      (∀ op ∈ [Stream.Op.readByte], op.sequential = true) ∧
      Promise Stream.pairs.source [1, 2, 3, 4, 5] 7 (pairsBuffer dither) 2 ∧
      taken Stream.pairs.source 2 (pairsBuffer dither) =
        [.ok (.byte (some 3)), .ok (.byte (some 4))] ∧
      Promise Stream.pairs.source [1, 2, 3, 4, 5] 7
        (pairsBuffer (dither ++ [.call (.seek 4 .start true)])) 3 ∧
      taken Stream.pairs.source 3 (pairsBuffer (dither ++ [.call (.seek 4 .start true)])) =
        [.ok (.byte (some 5)), .ok (.byte none), .ok (.byte none)] := by
  have hL : (7 : UInt64).toNat < signedLimit := by decide
  have hops : ∀ op ∈ [Stream.Op.readByte], op.sequential = true := by decide
  have hpromise (uses : List Use) {k : Int64}
      (hk : (pairsBuffer uses).1.available (pairsBuffer uses).2.1 = .ok (some k)) :
      Promise Stream.pairs.source [1, 2, 3, 4, 5] 7 (pairsBuffer uses) k.toInt.toNat := by
    rcases available_history hL (Stream.pairs.conforming 0 fun n _ => Stream.steady_pairs n)
      (w := ({} : Site)) (Nat.zero_le _) 1 hops 4 uses (p := pairsBuffer uses) rfl with
      ⟨l, hl, hpromise⟩ | ⟨hnone, -⟩
    · obtain rfl : k = l := by simpa [hk] using hl
      exact hpromise
    · simp [hk] at hnone
  refine ⟨hL, hops, hpromise dither (k := 2) (by decide), by decide, ?_, by decide⟩
  exact hpromise (dither ++ [.call (.seek 4 .start true)]) (k := 3) (by decide)

/-- A block without bytes. -/
def bare : SourceScript := { block := [] }

/-- Declared to have one byte, it is a block for which a buffer promises a byte and has none. -/
theorem available_bare :
    (∃ c : (bare.source (W := Site)).Conforming [], c.Fair {}) ∧
      (ofSize 4).available (Stream.start (R := ScriptedReader) 42 1) = .ok (some 1) ∧
      taken bare.source 1 (ofSize 4, Stream.start 42 1, ({} : Site)) = [.ok (.byte none)] := by
  have hsteady (n : Nat) : n ∉ bare.failingCreates ∧ ((forCall? bare.readers n).getD {}).Steady :=
    ⟨List.not_mem_nil, by simpa [bare, forCall?] using ReaderScript.steady_default⟩
  exact ⟨⟨bare.conforming 0 fun n _ => hsteady n, Nat.zero_le _⟩, by decide, by decide⟩

end BlockAccess.StreamBuffer

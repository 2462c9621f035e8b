import BlockAccess.Stream.Buffer
import BlockAccess.Proofs.Acts
import BlockAccess.Proofs.Stream.Queries

/-!
# A buffer is a plain cursor

What a client of a buffer sees is a place in the block and nothing else: `StreamBuffer.answer` gives
the reply to a call and the next place, from the block, the declared length and the place alone.
That the end was met is not part of it, and neither are the size of the buffer, what it holds, or
the packets of the source.

Over a source that delivers the block a buffer does the same.  `Buffered` is the invariant: the
bytes that are not taken are the front of what follows the place, and the stream is past them.  A
move gives these bytes up, so it may change the place although the stream stays where it is.
-/

namespace BlockAccess

namespace Offset

/-- A signed sum that is too large wraps to the other side of zero. -/
theorem toInt_add_cases {a k : Int64} (ha : 0 ≤ a.toInt) :
    (a + k).toInt = a.toInt + k.toInt ∨
      (a + k).toInt < 0 ∧ (signedLimit : Int) ≤ a.toInt + k.toInt := by
  have halimit := a.toInt_lt
  have hklimit := k.toInt_lt
  have hkleast := k.le_toInt
  rw [Int64.toInt_add]
  simp only [signedLimit, Int.bmod]
  split <;> omega

theorem toInt64_eq_ofNat (x : UInt64) : x.toInt64 = .ofNat x.toNat := by
  rw [← UInt64.toInt64_ofNat', UInt64.ofNat_toNat]

theorem toInt_ofNat_of_le {n m : Nat} (h : n ≤ m) (hm : m < signedLimit) :
    (Int64.ofNat n).toInt = n :=
  Int64.toInt_ofNat_of_lt (Nat.lt_of_le_of_lt h hm)

/-- A number up to a length that is read the same with and without a sign, as a word. -/
theorem ofNat_within {n : Nat} {length : UInt64} (hn : n ≤ length.toNat)
    (hL : length.toNat < signedLimit) :
    ¬Int64.ofNat n < 0 ∧ ¬length < (Int64.ofNat n).toUInt64 ∧
      (Int64.ofNat n).toUInt64.toNat = n := by
  have hword := toInt_ofNat_of_le hn hL
  have hnat := toNat_toUInt64 (t := .ofNat n) (by omega)
  rw [neg_iff, toNat_lt_iff (by omega)]
  omega

/-- The sum of a number and a signed word is told by the sum in words: that is the number itself if
it is from zero to a length, and else a word below zero or beyond the length. -/
theorem sum_cases {base : Nat} {length : UInt64} (hbase : base ≤ length.toNat)
    (hL : length.toNat < signedLimit) (k : Int64) :
    ((0 ≤ base + k.toInt ∧ base + k.toInt ≤ length.toNat) ∧
        Int64.ofNat base + k = .ofNat (base + k.toInt).toNat) ∨
      ¬(0 ≤ base + k.toInt ∧ base + k.toInt ≤ length.toNat) ∧
        (Int64.ofNat base + k < 0 || length < (Int64.ofNat base + k).toUInt64) = true := by
  have hword := toInt_ofNat_of_le hbase hL
  have hcases := toInt_add_cases (a := .ofNat base) (k := k) (by omega)
  rw [hword] at hcases
  rw [Bool.or_eq_true, decide_eq_true_eq, decide_eq_true_eq, neg_iff]
  rcases hcases with hsum | ⟨hneg, hlarge⟩
  · by_cases hstart : 0 ≤ base + k.toInt
    · rw [toNat_lt_iff (by omega), hsum]
      by_cases hend : base + k.toInt ≤ length.toNat
      · exact .inl ⟨⟨hstart, hend⟩, eq_ofNat (by omega)⟩
      · exact .inr ⟨fun h => hend h.2, .inr (Int.not_le.1 hend)⟩
    · exact .inr ⟨fun h => hstart h.1, .inl (by omega)⟩
  · exact .inr ⟨fun h => by omega, .inl hneg⟩

end Offset

open Offset

namespace StreamBuffer

/-! ## Calls and their replies -/

/-- A call of a client on a buffer. -/
inductive Call where
  | peek
  | take
  | takeMany (n : Int64)
  | seek (offset : Int64) (origin : Origin) (input : Bool)
  deriving DecidableEq, Repr

/-- What a client is told. -/
inductive Reply where
  /-- A byte; none at the end. -/
  | byte (b : Option UInt8)
  | bytes (b : Bytes)
  /-- A position; none if a move is refused. -/
  | position (p : Option Int64)
  deriving DecidableEq, Repr

section

variable {W R : Type} [Journaled W]

/-- Makes a call on a buffer, its stream and the surroundings. -/
def perform (src : Source W R) (call : Call) (p : StreamBuffer × Stream R × W) :
    Except Failure Reply × StreamBuffer × Stream R × W :=
  match p with
  | (b, s, w) =>
    match call with
    | .peek => let r := b.peek src s w; (r.1.map .byte, r.2)
    | .take => let r := b.take src s w; (r.1.map .byte, r.2)
    | .takeMany n => let r := b.takeMany src n s w; (r.1.map .bytes, r.2)
    | .seek offset origin input =>
      let r := b.seek src offset origin input s w; (r.1.map .position, r.2)

end

/-! ## The cursor -/

/-- The number that a move counts from; none for an origin that is not valid. -/
def Origin.base? (length place : Nat) : Origin → Option Nat
  | .start => some 0
  | .here => some place
  | .finish => some length
  | .invalid => none

/-- The place that a move leads to, reckoned in exact numbers; none unless it is the reading side
that is to be moved, and from the start to the declared end. -/
def landing? (length place : Nat) (offset : Int64) (origin : Origin) (input : Bool) : Option Nat :=
  if input then
    match origin.base? length place with
    | none => none
    | some base =>
      if 0 ≤ base + offset.toInt ∧ base + offset.toInt ≤ length then
        some (base + offset.toInt).toNat
      else none
  else none

/-- The bytes from the start of a block up to the declared end, or to its own end if that comes
first. -/
def readable (block : Bytes) (length : Nat) : Bytes := block.take length

/-- The reply to a call at a place of a block, and the place afterwards. -/
def answer (block : Bytes) (length place : Nat) : Call → Reply × Nat
  | .peek => (.byte (readable block length)[place]?, place)
  | .take =>
    match (readable block length)[place]? with
    | none => (.byte none, place)
    | some a => (.byte (some a), place + 1)
  | .takeMany n =>
    let b := ((readable block length).drop place).take n.toInt.toNat
    (.bytes b, place + b.length)
  | .seek offset origin input =>
    let target := landing? length place offset origin input
    (.position (target.map .ofNat), target.getD place)

/-- The replies to the calls of a run that begins at a place. -/
def answers (block : Bytes) (length : Nat) : Nat → List Call → List Reply
  | _, [] => []
  | place, call :: calls =>
    (answer block length place call).1 ::
      answers block length (answer block length place call).2 calls

theorem length_readable (block : Bytes) (length : Nat) :
    (readable block length).length = Cursor.finish block length := List.length_take

/-- There is no byte at a place exactly if it is not in front of both ends. -/
theorem byte_eq_none_iff (block : Bytes) (length place : Nat) :
    (readable block length)[place]? = none ↔ min length block.length ≤ place := by
  rw [List.getElem?_eq_none_iff, length_readable]
  exact Iff.rfl

/-! ## The invariant -/

variable {W R : Type} [Journaled W] {src : Source W R} {S : Bytes} {length : UInt64}
  {c : src.Conforming S} {place : Nat} {b : StreamBuffer} {s : Stream R} {w : W}

/-- A buffer at a place of a block, over a stream that is ready.  The bytes that are not taken are
the front of what follows the place, and the stream is past them. -/
structure Buffered (c : src.Conforming S) (length : UInt64) (place : Nat)
    (p : StreamBuffer × Stream R × W) : Prop extends Stream.Ready c length p.2 where
  size_pos : 0 < p.1.size.toNat
  ahead : p.1.ahead <+: (readable S length.toNat).drop place
  position_eq : p.2.1.position.toNat = place + p.1.ahead.length

/-- A buffer that was just put over a stream. -/
theorem buffered_ofSize (size : UInt64) {p : Stream R × W} (h : Stream.Ready c length p) :
    Buffered c length p.1.position.toNat (ofSize size, p) where
  toReady := h
  size_pos := by
    unfold ofSize
    dsimp only
    split
    · decide
    · next hsize => exact Nat.pos_of_ne_zero fun h0 => hsize (UInt64.toNat_inj.1 h0)
  ahead := List.nil_prefix
  position_eq := rfl

/-- A buffer is never behind the declared end. -/
theorem Buffered.place_le (h : Buffered c length place (b, s, w)) : place ≤ length.toNat := by
  have hposition : s.position.toNat = place + b.ahead.length := h.position_eq
  have hle : s.position.toNat ≤ length.toNat := h.position_le
  omega

/-! ## Taking bytes -/

theorem bump_eq (b : StreamBuffer) : b.bump = b.bumpMany 1 := by
  obtain ⟨size, behind, ahead⟩ := b
  cases ahead with
  | nil => rfl
  | cons a rest => rfl

/-- Taking bytes that are held moves the place and leaves the stream alone. -/
theorem Buffered.bumpMany (h : Buffered c length place (b, s, w)) (n : Nat) :
    Buffered c length (place + (b.ahead.take n).length) (b.bumpMany n, s, w) where
  toReady := h.toReady
  size_pos := h.size_pos
  ahead := by
    obtain ⟨rest, hrest⟩ := h.ahead
    obtain ⟨-, hdrop⟩ := Stream.take_append_min b.ahead rest n
    refine ⟨rest, ?_⟩
    rw [List.length_take, ← List.drop_drop, ← hrest]
    exact hdrop
  position_eq := by
    have hposition : s.position.toNat = place + b.ahead.length := h.position_eq
    show s.position.toNat = _ + (b.ahead.drop n).length
    rw [List.length_take, List.length_drop]
    omega

/-- The byte at the place is the first of those that are held. -/
theorem Buffered.byte_eq {a : UInt8} {rest : Bytes} (h : Buffered c length place (b, s, w))
    (hahead : b.ahead = a :: rest) : (readable S length.toNat)[place]? = some a := by
  obtain ⟨rest', hrest⟩ := h.ahead
  dsimp only at hrest
  rw [← List.head?_drop, ← hrest, hahead]
  rfl

/-- A buffer that holds nothing to take reads what is at the place. -/
theorem Buffered.refill (h : Buffered c length place (b, s, w)) (hahead : b.ahead = []) :
    (∃ s' w', s.readSome src b.size w = (.ok none, s', w') ∧
      (readable S length.toNat)[place]? = none ∧ Buffered c length place (b, s', w')) ∨
    ∃ a rest s' w', s.readSome src b.size w = (.ok (some (a :: rest)), s', w') ∧
      Buffered c length place ({ b with behind := [], ahead := a :: rest }, s', w') := by
  have hposition : s.position.toNat = place := by
    have hposition : s.position.toNat = place + b.ahead.length := h.position_eq
    rwa [hahead, List.length_nil, Nat.add_zero] at hposition
  obtain ⟨x, s', w', hr, hreads, hready⟩ := h.toReady.readSome b.size
  rw [hr]
  generalize hk : Stream.cursorOf s' = k at hreads
  have hplace : s'.position.toNat = k.position := congrArg Cursor.position hk
  cases hreads with
  | nothing hn => exact absurd hn (Nat.ne_of_gt h.size_pos)
  | ended hn hend =>
    refine .inl ⟨s', w', rfl, ?_, hready, h.size_pos, h.ahead, ?_⟩
    · rw [byte_eq_none_iff, ← hposition]
      exact hend
    · rw [hahead]
      exact hplace.trans hposition
  | bytes n hpos hn hfinish =>
    -- what was read is the front of what follows the place
    rw [← Cursor.ahead_of_le hfinish]
    have hlength : ((Stream.cursorOf s).ahead S length n).length = n := by
      rw [Cursor.length_ahead]
      omega
    have hfront : (Stream.cursorOf s).ahead S length n <+: (readable S length.toNat).drop place :=
      hposition ▸ List.take_prefix n _
    cases hread : (Stream.cursorOf s).ahead S length n with
    | nil =>
      rw [hread, List.length_nil] at hlength
      omega
    | cons a rest =>
      rw [hread] at hlength hfront
      refine .inr ⟨a, rest, s', w', rfl, hready, h.size_pos, hfront, ?_⟩
      rw [hlength, ← hposition]
      exact hplace

/-- Looking at a byte gives the one at the place, and it is held then. -/
theorem Buffered.peek (h : Buffered c length place (b, s, w)) : ∃ b' s' w',
    b.peek src s w = (.ok (readable S length.toNat)[place]?, b', s', w') ∧
      Buffered c length place (b', s', w') ∧
      b'.ahead.head? = (readable S length.toNat)[place]? := by
  unfold StreamBuffer.peek
  cases hahead : b.ahead with
  | cons a rest =>
    rw [h.byte_eq hahead]
    exact ⟨b, s, w, rfl, h, by rw [hahead]; rfl⟩
  | nil =>
    rcases h.refill hahead with ⟨s', w', hr, hnone, hafter⟩ | ⟨a, rest, s', w', hr, hafter⟩
    · rw [hr, hnone]
      exact ⟨b, s', w', rfl, hafter, by rw [hahead]; rfl⟩
    · rw [hr, hafter.byte_eq rfl]
      exact ⟨_, s', w', rfl, hafter, rfl⟩

/-- Taking a byte gives the one at the place, and the place moves by one if there is one. -/
theorem Buffered.take (h : Buffered c length place (b, s, w)) : ∃ b' s' w',
    b.take src s w = (.ok (readable S length.toNat)[place]?, b', s', w') ∧
      Buffered c length (place + (readable S length.toNat)[place]?.toList.length) (b', s', w') := by
  obtain ⟨b', s', w', hpeek, hbuffered, hhead⟩ := h.peek
  unfold StreamBuffer.take
  rw [hpeek]
  cases hbyte : (readable S length.toNat)[place]? with
  | none => exact ⟨b', s', w', rfl, hbuffered⟩
  | some a =>
    rw [hbyte] at hhead
    have hmoved := hbuffered.bumpMany 1
    rw [List.take_one, hhead, ← bump_eq] at hmoved
    exact ⟨b'.bump, s', w', rfl, hmoved⟩

/-- The next bytes are the one at the place, if there is one, and those that follow it. -/
theorem take_drop_eq {m : Nat} (hm : 0 < m) (l : Bytes) (i : Nat) :
    (l.drop i).take m = l[i]?.toList ++ (l.drop (i + 1)).take (m - 1) := by
  obtain ⟨k, rfl⟩ : ∃ k, m = 1 + k := ⟨m - 1, by omega⟩
  rw [List.take_add, List.take_one, List.head?_drop, List.drop_drop, Nat.add_sub_cancel_left]

/-- More bytes than are held: those that are held, the one that follows them, if there is one, and
those behind that. -/
theorem take_of_prefix {held l : Bytes} {i n : Nat} (h : held <+: l.drop i)
    (hn : held.length < n) : (l.drop i).take n = held ++
      (l[i + held.length]?.toList ++
        (l.drop (i + held.length + 1)).take (n - held.length - 1)) := by
  rw [← take_drop_eq (Nat.sub_pos_of_lt hn), ← List.drop_drop]
  obtain ⟨rest, hrest⟩ := h
  rw [← hrest, List.drop_left, List.take_append, List.take_of_length_le (Nat.le_of_lt hn)]

/-- **Taking several bytes gives those that follow the place**, however they come together. -/
theorem Buffered.takePieces {n : Nat} (got : List Bytes) {place : Nat} {b : StreamBuffer}
    {s : Stream R} {w : W} (h : Buffered c length place (b, s, w)) : ∃ got' b' s' w',
      takePieces src n got b s w = (.ok got', b', s', w') ∧
      got'.reverse.flatten =
        got.reverse.flatten ++ ((readable S length.toNat).drop place).take n ∧
      Buffered c length (place + (((readable S length.toNat).drop place).take n).length)
        (b', s', w') := by
  have hahead : b.ahead <+: (readable S length.toNat).drop place := h.ahead
  have hbumped := h.bumpMany n
  unfold StreamBuffer.takePieces
  by_cases hleft : n - (b.ahead.take n).length = 0
  · -- the buffer holds all of them
    have hn : n ≤ b.ahead.length := by
      rw [List.length_take] at hleft
      omega
    have hfront : ((readable S length.toNat).drop place).take n = b.ahead.take n := by
      obtain ⟨rest, hrest⟩ := hahead
      rw [← hrest, List.take_append_of_le_length hn]
    rw [dif_pos hleft, hfront]
    exact ⟨_, _, _, _, rfl, by simp, hbumped⟩
  · -- it gives all it holds, and what follows is read
    have hn : b.ahead.length < n := by
      rw [List.length_take] at hleft
      omega
    have hpiece : b.ahead.take n = b.ahead := List.take_of_length_le (Nat.le_of_lt hn)
    rw [hpiece] at hbumped hleft
    obtain ⟨b', s', w', htake, htaken⟩ := hbumped.take
    rw [dif_neg (by rwa [hpiece]), htake, hpiece, take_of_prefix hahead hn]
    cases hbyte : (readable S length.toNat)[place + b.ahead.length]? with
    | none =>
      have hend : (readable S length.toNat).drop (place + b.ahead.length + 1) = [] := by
        rw [List.getElem?_eq_none_iff] at hbyte
        exact List.drop_eq_nil_of_le (Nat.le_add_right_of_le hbyte)
      rw [hbyte] at htaken
      rw [hend]
      exact ⟨_, b', s', w', rfl, by simp, by simpa using htaken⟩
    | some a =>
      rw [hbyte] at htaken
      obtain ⟨got', b'', s'', w'', hpieces, hbytes, hend⟩ := htaken.takePieces
        (n := n - b.ahead.length - 1) ([a] :: b.ahead :: got)
      refine ⟨got', b'', s'', w'', hpieces, ?_, ?_⟩
      · simpa using hbytes
      · rw [Nat.add_assoc, Nat.add_assoc, ← List.length_append, ← List.length_append] at hend
        exact hend
termination_by n

theorem Buffered.takeMany (h : Buffered c length place (b, s, w)) (n : Int64) : ∃ b' s' w',
    b.takeMany src n s w =
        (.ok (((readable S length.toNat).drop place).take n.toInt.toNat), b', s', w') ∧
      Buffered c length
        (place + (((readable S length.toNat).drop place).take n.toInt.toNat).length)
        (b', s', w') := by
  obtain ⟨got, b', s', w', hpieces, hbytes, hend⟩ := h.takePieces (n := n.toInt.toNat) []
  rw [List.reverse_nil, List.flatten_nil, List.nil_append] at hbytes
  refine ⟨b', s', w', ?_, hend⟩
  unfold StreamBuffer.takeMany
  rw [hpieces, ← hbytes]

/-! ## Moving -/

omit [Journaled W] in
/-- The position that a buffer tells is its place, in words. -/
theorem position_eq_ofNat (h : s.position.toNat = place + b.ahead.length) :
    b.position s = .ofNat place := by
  rw [position, toInt64_eq_ofNat, h, ← Int64.ofNat_sub _ _ (Nat.le_add_left ..), Nat.add_sub_cancel]

omit [Journaled W] in
/-- The position that a move leads to is reckoned in words. -/
theorem target?_eq (h : s.position.toNat = place + b.ahead.length) (offset : Int64)
    (origin : Origin) : b.target? s offset origin =
      (origin.base? s.length.toNat place).map fun base => .ofNat base + offset := by
  cases origin with
  | start => exact congrArg some (Int64.zero_add offset).symm
  | here =>
    rw [target?, position_eq_ofNat h]
    rfl
  | finish =>
    rw [target?, toInt64_eq_ofNat]
    rfl
  | invalid => rfl

theorem base_le {length place base : Nat} (hplace : place ≤ length) {origin : Origin}
    (hbase : origin.base? length place = some base) : base ≤ length := by
  cases origin with
  | start => exact Option.some.inj hbase ▸ Nat.zero_le _
  | here => exact Option.some.inj hbase ▸ hplace
  | finish => exact Nat.le_of_eq (Option.some.inj hbase).symm
  | invalid => simp [Origin.base?] at hbase

/-- The stream is moved to a place up to the declared end, and what is held is given up. -/
theorem Buffered.seekStream (hL : length.toNat < signedLimit)
    (h : Buffered c length place (b, s, w)) {target : Nat} (hle : target ≤ length.toNat) :
    ∃ s' w', s.seek src (.ofNat target) w = (.ok (), s', w') ∧
      Buffered c length target (b.emptied, s', w') := by
  obtain ⟨hneg, hpast, hnat⟩ := ofNat_within hle hL
  have hstands : Stream.Stands c s.block length (Stream.cursorOf s) (s, w) := ⟨h.toReady, rfl, rfl⟩
  obtain ⟨s', w', hseek, hmoved⟩ := hstands.seek hL hneg hpast
  have hposition : s'.position.toNat = target := by
    rw [← hnat]
    exact congrArg Cursor.position hmoved.cursor
  exact ⟨s', w', hseek, hmoved.toReady, h.size_pos, List.nil_prefix, hposition⟩

/-- A move to a place up to the declared end is made. -/
theorem Buffered.seek_of_le (hL : length.toNat < signedLimit)
    (h : Buffered c length place (b, s, w)) {offset : Int64} {origin : Origin} {target : Nat}
    (htarget : b.target? s offset origin = some (.ofNat target)) (hle : target ≤ length.toNat) :
    ∃ p', b.seek src offset origin true s w = (.ok (some (.ofNat target)), p') ∧
      Buffered c length target p' := by
  have hlength : s.length = length := h.length_eq
  obtain ⟨hneg, hpast, -⟩ := ofNat_within hle hL
  unfold StreamBuffer.seek
  rw [htarget, hlength, position_eq_ofNat h.position_eq]
  simp only [hneg, hpast, Bool.not_true, decide_false, Bool.or_self, Bool.false_eq_true, if_false]
  by_cases hsame : Int64.ofNat target = .ofNat place
  · -- the buffer is there already
    have hplace : target = place := by
      have hvalue := congrArg Int64.toInt hsame
      rw [toInt_ofNat_of_le hle hL, toInt_ofNat_of_le h.place_le hL] at hvalue
      omega
    rw [if_pos hsame]
    exact ⟨(b, s, w), rfl, hplace ▸ h⟩
  · obtain ⟨s', w', hseek, hmoved⟩ := h.seekStream hL hle
    rw [if_neg hsame, hseek]
    exact ⟨(b.emptied, s', w'), rfl, hmoved⟩

/-- **A move leads to where the cursor lands**, and a move that is refused changes nothing. -/
theorem Buffered.seek (hL : length.toNat < signedLimit) (h : Buffered c length place (b, s, w))
    (offset : Int64) (origin : Origin) (input : Bool) : ∃ p',
    b.seek src offset origin input s w =
        (.ok ((landing? length.toNat place offset origin input).map .ofNat), p') ∧
      Buffered c length ((landing? length.toNat place offset origin input).getD place) p' ∧
      (landing? length.toNat place offset origin input = none → p' = (b, s, w)) := by
  have hlength : s.length = length := h.length_eq
  have htarget := target?_eq h.position_eq offset origin
  rw [hlength] at htarget
  unfold landing?
  cases input with
  | false => exact ⟨(b, s, w), rfl, h, fun _ => rfl⟩
  | true =>
    cases hbase : origin.base? length.toNat place with
    | none =>
      rw [hbase] at htarget
      refine ⟨(b, s, w), ?_, h, fun _ => rfl⟩
      unfold StreamBuffer.seek
      rw [htarget]
      rfl
    | some base =>
      rw [hbase, Option.map_some] at htarget
      simp only [if_true]
      rcases sum_cases (base_le h.place_le hbase) hL offset with ⟨hland, hsum⟩ | ⟨hland, hrefused⟩
      · obtain ⟨p', hseek, hmoved⟩ :=
          h.seek_of_le hL (htarget.trans (congrArg some hsum)) (by omega)
        rw [if_pos hland]
        exact ⟨p', hseek, hmoved, fun hnone => by simp at hnone⟩
      · refine ⟨(b, s, w), ?_, by rwa [if_neg hland], fun _ => rfl⟩
        unfold StreamBuffer.seek
        rw [htarget, hlength, if_neg hland]
        exact if_pos hrefused

/-! ## Runs -/

/-- **A call is answered by the cursor**, and a move that is refused changes nothing. -/
theorem Buffered.perform (hL : length.toNat < signedLimit) {p : StreamBuffer × Stream R × W}
    (h : Buffered c length place p) (call : Call) : ∃ p',
    StreamBuffer.perform src call p = (.ok (answer S length.toNat place call).1, p') ∧
      Buffered c length (answer S length.toNat place call).2 p' ∧
      ((answer S length.toNat place call).1 = .position none → p' = p) := by
  obtain ⟨b, s, w⟩ := p
  cases call with
  | peek =>
    obtain ⟨b', s', w', hpeek, hafter, -⟩ := h.peek
    simp only [StreamBuffer.perform, hpeek]
    exact ⟨_, rfl, hafter, fun hnone => by simp [answer] at hnone⟩
  | take =>
    obtain ⟨b', s', w', htake, hafter⟩ := h.take
    simp only [StreamBuffer.perform, htake, answer]
    cases hbyte : (readable S length.toNat)[place]? with
    | none =>
      rw [hbyte] at hafter
      exact ⟨_, rfl, hafter, fun hnone => by simp at hnone⟩
    | some a =>
      rw [hbyte] at hafter
      exact ⟨_, rfl, hafter, fun hnone => by simp at hnone⟩
  | takeMany n =>
    obtain ⟨b', s', w', htake, hafter⟩ := h.takeMany n
    simp only [StreamBuffer.perform, htake]
    exact ⟨_, rfl, hafter, fun hnone => by simp [answer] at hnone⟩
  | seek offset origin input =>
    obtain ⟨p', hseek, hafter, hrefused⟩ := h.seek hL offset origin input
    simp only [StreamBuffer.perform, hseek]
    refine ⟨p', rfl, hafter, fun hnone => hrefused ?_⟩
    simpa [answer] using hnone

theorem Buffered.run (hL : length.toNat < signedLimit) {p : StreamBuffer × Stream R × W}
    (h : Buffered c length place p) (calls : List Call) :
    (acts (StreamBuffer.perform src) calls p).map Act.result =
        (answers S length.toNat place calls).map .ok ∧
      ∀ a ∈ acts (StreamBuffer.perform src) calls p,
        a.result = .ok (.position none) → a.after = a.before := by
  induction calls generalizing place p with
  | nil => exact ⟨rfl, fun a ha => absurd ha List.not_mem_nil⟩
  | cons call calls ih =>
    obtain ⟨p', hperform, hafter, hrefused⟩ := h.perform hL call
    have hact : act (StreamBuffer.perform src) call p =
        ⟨call, p, .ok (answer S length.toNat place call).1, p'⟩ := by
      rw [act, hperform]
    obtain ⟨hresults, hnothing⟩ := ih hafter
    rw [acts_cons, hact, answers, List.map_cons, List.map_cons, hresults, List.forall_mem_cons]
    exact ⟨rfl, fun hnone => hrefused (Except.ok.inj hnone), hnothing⟩

/-- **A buffer is a plain cursor.**  Over a source that delivers a block, in whatever packets, and
for any declared length below 2^63, the calls on a buffer of any size are answered from the block,
the declared length and the place alone: the place where the stream was when the buffer was put over
it.  Moves that are refused change neither buffer nor stream, and leave the source alone. -/
theorem buffered_history (hL : length.toNat < signedLimit) (c : src.Conforming S) (hw : c.Fair w)
    (block : UInt64) {ops : List Stream.Op} (hops : ∀ op ∈ ops, op.sequential = true)
    (size : UInt64) (calls : List Call) {p : Stream R × W}
    (hp : p = Stream.run src ops (Stream.start block length, w)) :
    (acts (perform src) calls (ofSize size, p)).map Act.result =
        (answers S length.toNat p.1.position.toNat calls).map .ok ∧
      ∀ a ∈ acts (perform src) calls (ofSize size, p),
        a.result = .ok (.position none) → a.after = a.before := by
  subst hp
  obtain ⟨-, hready⟩ := (Stream.ready_start c hw).run hL hops
  exact (buffered_ofSize size hready).run hL calls

/-- Bytes and moves, also some that are refused, over the ends of a block and of its length. -/
def wander : List Call :=
  [.seek 0 .here true, .take, .peek, .takeMany 2, .seek (-8) .finish true, .seek (-5) .finish true,
    .take, .seek 9223372036854775807 .here true, .seek 0 .start false, .seek 6 .start true, .take,
    .seek 4 .start true, .takeMany 9, .peek]

theorem buffered_history_pairs :
    (7 : UInt64).toNat < signedLimit ∧
      (∀ op ∈ [Stream.Op.readByte], op.sequential = true) ∧
      (acts (perform (Stream.pairs.source (W := Site))) wander
          (ofSize 0, Stream.run (Stream.pairs.source (W := Site)) [.readByte]
            (Stream.start 1 7, {}))).map Act.result =
        [.ok (.position (some 1)), .ok (.byte (some 2)), .ok (.byte (some 3)), .ok (.bytes [3, 4]),
          .ok (.position none), .ok (.position (some 2)), .ok (.byte (some 3)),
          .ok (.position none), .ok (.position none), .ok (.position (some 6)), .ok (.byte none),
          .ok (.position (some 4)), .ok (.bytes [5]), .ok (.byte none)] := by
  have hL : (7 : UInt64).toNat < signedLimit := by decide
  have hops : ∀ op ∈ [Stream.Op.readByte], op.sequential = true := by decide
  obtain ⟨hresults, -⟩ := buffered_history hL
    (Stream.pairs.conforming 0 fun n _ => Stream.steady_pairs n) (w := ({} : Site))
    (Nat.zero_le _) 1 hops 0 wander rfl
  exact ⟨hL, hops, hresults.trans rfl⟩

end StreamBuffer

end BlockAccess

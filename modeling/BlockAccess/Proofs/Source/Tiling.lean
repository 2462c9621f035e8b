import BlockAccess.Proofs.Acts
import BlockAccess.Proofs.Source.Remote
import BlockAccess.Proofs.Stream.Interchange

/-!
# Packets that tile a range

A reader of a local block hands out its range in packets of one size, the last of which may be
shorter.  They are the `pieces` of the range, one after the other, and then there is nothing more.
`LocalReader.Tiles` says so of any number of calls, with the position after each of them.

A reader that owes some bytes still owes the rest of the pieces after every call (`Owing.run`), and
from that the call after `n` calls gives piece number `n`.  What a reader owes when it is made is
the range that it was asked for, in exact numbers (`LocalBlock.owing_reader`).

A packet that the file does not deliver in full is not handed out, and this is the only way in which
a reader fails (`LocalReader.exacting`).
-/

namespace BlockAccess

/-! ## Pieces -/

/-- Every piece in front of the last one is full. -/
theorem length_of_mem_dropLast_pieces {size : Nat} (hsize : 0 < size) (b : Bytes) :
    ∀ p ∈ (pieces size b).dropLast, p.length = size := by
  induction b using pieces_induction hsize with
  | nil => simp
  | piece b hb ih =>
    rw [pieces_of_ne_nil hsize hb]
    by_cases hrest : b.drop size = []
    · simp [hrest]
    have hlonger : size < b.length := by
      rw [List.drop_eq_nil_iff] at hrest
      omega
    rw [pieces_of_ne_nil hsize hrest] at ih ⊢
    rw [List.dropLast_cons_cons, List.forall_mem_cons]
    exact ⟨List.length_take_of_le (Nat.le_of_lt hlonger), ih⟩

/-! ## Runs -/

namespace LocalReader

/-- A call on a reader. -/
inductive Call where
  | next
  | close
  deriving DecidableEq, Repr

variable {W : Type} [Files.Filed W] [Journaled W] {r : LocalReader} {b : Bytes} {w : W}

/-- Makes a call.  Closing gives no packet. -/
def perform : Call → LocalReader × W → Except Failure (Option Packet) × LocalReader × W
  | .next, p => next p.1 p.2
  | .close, p =>
    match close p.1 p.2 with
    | (result, q) => (result.map fun _ => none, q)

/-- After any number of calls a reader owes the pieces that it has not handed out. -/
theorem Owing.run (h : r.Owing (Files.Filed.files w) b) (n : Nat) : ∃ r' rest,
    endOf perform (List.replicate n .next) (r, w) = (r', w) ∧
      r'.Owing (Files.Filed.files w) rest ∧
      r'.packetSize = r.packetSize ∧
      pieces r.packetSize.toNat rest = (pieces r.packetSize.toNat b).drop n ∧
      r'.position.toNat =
        r.position.toNat + ((pieces r.packetSize.toNat b).take n).flatten.length := by
  induction n generalizing r b with
  | zero => exact ⟨r, b, rfl, h, rfl, rfl, rfl⟩
  | succ n ih =>
    have hsize : 0 < r.packetSize.toNat :=
      Nat.pos_of_ne_zero fun h0 => h.size_ne (UInt64.toNat_inj.1 h0)
    rw [List.replicate_succ, endOf]
    by_cases hb : b = []
    · subst hb
      have hstay : (act perform .next (r, w)).after = (r, w) := congrArg Prod.snd (h.next_nil w)
      rw [hstay]
      obtain ⟨r', rest, hend, howing, hsame, hrest, hposition⟩ := ih h
      refine ⟨r', rest, hend, howing, hsame, ?_, ?_⟩
      · rw [hrest]
        simp
      · rw [hposition]
        simp
    · obtain ⟨r₁, hnext, howing₁, hsame₁, hposition₁⟩ := h.next_packet hb
      have hmoved : (act perform .next (r, w)).after = (r₁, w) := congrArg Prod.snd hnext
      rw [hmoved, pieces_of_ne_nil hsize hb]
      obtain ⟨r', rest, hend, howing, hsame, hrest, hposition⟩ := ih howing₁
      rw [hsame₁] at hsame hrest hposition
      refine ⟨r', rest, hend, howing, hsame, hrest, ?_⟩
      rw [hposition, hposition₁, List.take_succ_cons, List.flatten_cons, List.length_append,
        Nat.add_assoc]

/-- A reader hands out a range in packets of one size. -/
structure Tiles (size offset : UInt64) (b : Bytes) (p : LocalReader × W) (ps : List Bytes) :
    Prop where
  /-- The packets make up the range. -/
  flatten : ps.flatten = b
  /-- No packet is empty or too large. -/
  sizes : ∀ q ∈ ps, q ≠ [] ∧ q.length ≤ size.toNat
  /-- All but the last have the same size. -/
  full : ∀ q ∈ ps.dropLast, q.length = size.toNat
  /-- After `n` calls the next packet is handed out, or there is none if all were. -/
  packets : ∀ n, (act perform .next (endOf perform (List.replicate n .next) p)).result =
    .ok (ps[n]?.map Packet.ofBytes)
  /-- The position is behind the bytes that were handed out. -/
  position : ∀ n, (endOf perform (List.replicate n .next) p).1.position.toNat =
    offset.toNat + (ps.take n).flatten.length

/-- **A reader hands out what it owes in pieces of its packet size.** -/
theorem Owing.tiles (h : r.Owing (Files.Filed.files w) b) :
    Tiles r.packetSize r.position b (r, w) (pieces r.packetSize.toNat b) := by
  have hsize : 0 < r.packetSize.toNat :=
    Nat.pos_of_ne_zero fun h0 => h.size_ne (UInt64.toNat_inj.1 h0)
  have hcut := cut_pieces hsize b
  constructor
  case flatten => exact hcut.flatten
  case sizes => exact hcut.sizes
  case full => exact length_of_mem_dropLast_pieces hsize b
  case packets =>
    intro n
    obtain ⟨r', rest, hend, howing, hsame, hrest, -⟩ := h.run n
    rw [hend, ← Nat.add_zero n, ← List.getElem?_drop, ← hrest]
    by_cases hnil : rest = []
    · subst hnil
      rw [pieces_nil]
      exact congrArg Prod.fst (howing.next_nil w)
    · obtain ⟨r₁, hnext, -⟩ := howing.next_packet hnil
      rw [pieces_of_ne_nil hsize hnil, ← hsame]
      exact congrArg Prod.fst hnext
  case position =>
    intro n
    obtain ⟨r', rest, hend, -, -, -, hposition⟩ := h.run n
    rw [hend]
    exact hposition

/-- A reader that was closed hands out nothing and stays where it is. -/
theorem closed_run (p : LocalReader × W) (calls : List Call) :
    ∀ a ∈ acts perform calls (act perform .close p).after,
      a.result = .ok none ∧ a.after.1.position = p.1.position := by
  refine forall_mem_acts (I := fun q => q.1.stream = none ∧ q.1.position = p.1.position)
    (fun c q hq => ?_) ⟨rfl, rfl⟩
  cases c with
  | next =>
    have hnext : LocalReader.next q.1 q.2 = (.ok none, q) := next_of_none hq.1 q.2
    exact ⟨⟨congrArg Prod.fst hnext, (congrArg (fun z => z.2.1.position) hnext).trans hq.2⟩,
      (congrArg (fun z => z.2.1.stream) hnext).trans hq.1,
      (congrArg (fun z => z.2.1.position) hnext).trans hq.2⟩
  | close => exact ⟨⟨rfl, hq.2⟩, rfl, hq.2⟩

/-! ## Packets that cannot be read in full -/

/-- How a reader takes it if its file delivers too little. -/
structure Exacting (r : LocalReader) (w : W) : Prop where
  /-- A reader fails exactly if it is open, in front of the end of its range, and its file delivers
  fewer bytes than the next packet has. -/
  fails_iff : (∃ f, (r.next w).1 = .error f) ↔ ∃ file, r.stream = some file ∧
    r.position < r.stop ∧ (file.readNoted r.nextSize w).1.length < r.nextSize.toNat
  /-- It tells how many bytes it could not read, and where, and it stays there. -/
  failed : ∀ f, (r.next w).1 = .error f →
    f = .transport (.shortRead r.nextSize r.position) ∧ (r.next w).2.1.position = r.position

theorem exacting (r : LocalReader) (w : W) : r.Exacting w := by
  cases hstream : r.stream with
  | none =>
    have hnext := next_of_none hstream w
    constructor
    all_goals simp [hnext, hstream]
  | some file =>
    by_cases hend : r.stop ≤ r.position
    · have hnext := next_of_le hend w
      constructor
      case fails_iff =>
        rw [hnext]
        constructor
        · rintro ⟨f, hf⟩
          simp at hf
        · rintro ⟨file', -, hlt, -⟩
          exact absurd hlt (UInt64.not_lt.2 hend)
      case failed => simp [hnext]
    have hle := Nat.le_trans (file.length_readNoted_le r.nextSize w) (file.asked_le r.nextSize)
    rcases hread : file.readNoted r.nextSize w with ⟨b, file', w'⟩
    rw [hread] at hle
    have hnext := next_of_readNoted hstream hend hread
    by_cases hall : b.length = r.nextSize.toNat
    · rw [if_pos hall] at hnext
      constructor
      case fails_iff => simp [hnext, hstream, hread, hall]
      case failed => simp [hnext]
    · rw [if_neg hall] at hnext
      constructor
      case fails_iff =>
        rw [hnext]
        refine ⟨fun _ => ⟨file, hstream, UInt64.not_le.1 hend, ?_⟩, fun _ => ⟨_, rfl⟩⟩
        rw [hread]
        exact Nat.lt_of_le_of_ne hle hall
      case failed =>
        rw [hnext]
        exact fun f hf => ⟨(Except.error.inj hf).symm, rfl⟩

end LocalReader

/-! ## Blocks -/

namespace LocalBlock

open LocalReader (perform)

/-- How the ranges of a block are read whose file has certain contents. -/
structure Covers (b : LocalBlock) (S : Bytes) (offset length : UInt64) (w : Site) : Prop where
  /-- The end of a range is reckoned exactly. -/
  stop : (b.stop offset length).toNat = offset.toNat + min length.toNat (S.length - offset.toNat)
  /-- There is a reader for a range exactly if its start is an offset for the file system. -/
  made_iff : (∃ r w', b.create offset length w = (.ok r, w')) ↔
    offset.toNat ≤ w.files.offsetLimit
  /-- Its packets tile the range. -/
  tiles : ∀ r w', b.create offset length w = (.ok r, w') → r.stop = b.stop offset length ∧
    ∃ ps, LocalReader.Tiles b.packetSize offset (range S offset length) (r, w') ps

/-- **A local reader covers its range exactly**, wherever its file can be positioned.  The file is
as it was when the block was opened, whatever happened besides.  A reader that was closed is at its
end for good, and one whose file delivers too little fails and stays where it is; both hold of every
reader. -/
theorem covers_range {address : Address} {id size : UInt64} {path : Text} {w₀ w w' : Site}
    {b : LocalBlock} {S : Bytes} (h : acquire address id size path w₀ = (.ok b, w))
    (hk : w₀.files.Keeps path S) (hw' : w'.files.Keeps b.path S) (offset length : UInt64) :
    b.Covers S offset length w' ∧
      (∀ (p : LocalReader × Site) calls, ∀ a ∈ acts perform calls (act perform .close p).after,
        a.result = .ok none ∧ a.after.1.position = p.1.position) ∧
      ∀ (r : LocalReader) (v : Site), r.Exacting v := by
  obtain ⟨-, hsize, hlength, -, -⟩ := acquire_ok h hk
  have hkept : b.Kept S w'.files.offsetLimit w' := ⟨hw', rfl⟩
  obtain ⟨n, -, hnode, hread⟩ := hw'.readStream_eq
  have hmade (hle : offset.toNat ≤ w'.files.offsetLimit) :
      b.create offset length w' = (.ok (b.reader { node := n } offset length), w') := by
    rw [create_of_readStream hread hnode, if_neg (Nat.not_lt.2 hle)]
  refine ⟨⟨b.toNat_stop hlength offset length, ?_, ?_⟩, LocalReader.closed_run,
    LocalReader.exacting⟩
  · constructor
    · rintro ⟨r, w₁, hcreate⟩
      by_contra hlarge
      obtain ⟨w₂, hrefused⟩ := create_of_lt hkept (Nat.lt_of_not_le hlarge) length
      simp [hrefused] at hcreate
    · exact fun hle => ⟨_, _, hmade hle⟩
  · intro r w₁ hcreate
    by_cases hle : offset.toNat ≤ w'.files.offsetLimit
    · rw [hmade hle] at hcreate
      simp only [Prod.mk.injEq, Except.ok.injEq] at hcreate
      obtain ⟨rfl, rfl⟩ := hcreate
      exact ⟨rfl, _, (owing_reader hsize hlength hnode offset length).tiles (w := w')⟩
    · obtain ⟨w₂, hrefused⟩ := create_of_lt hkept (Nat.lt_of_not_le hle) length
      simp [hrefused] at hcreate

open BlockAccess.Stream (shelf shelved pinned acquire_shelved keeps_shelf narrowShelf)

/-- Five bytes in packets of two, from the third one on, with a length that is as large as can be.
The last packet is shorter. -/
theorem covers_range_shelved :
    acquire {} 7 2 [98] shelf = (.ok shelved, pinned shelf) ∧
      shelved.Covers [1, 2, 3, 4, 5] 2 18446744073709551615 (pinned shelf) ∧
      (shelved.stop 2 18446744073709551615).toNat = 5 ∧
      ∃ r, shelved.create 2 18446744073709551615 (pinned shelf) = (.ok r, pinned shelf) ∧
        (acts perform [.next, .next, .next, .close, .next] (r, pinned shelf)).map
            (fun a => (a.result, a.after.1.position)) =
          [(.ok (some (.ofBytes [3, 4])), 4), (.ok (some (.ofBytes [5])), 5), (.ok none, 5),
            (.ok none, 5), (.ok none, 5)] := by
  have hkeeps : (pinned shelf).files.Keeps shelved.path [1, 2, 3, 4, 5] :=
    ⟨by decide, by decide, by decide, by decide⟩
  obtain ⟨hcovers, -, -⟩ :=
    covers_range acquire_shelved keeps_shelf hkeeps 2 18446744073709551615
  exact ⟨rfl, hcovers, rfl, _, rfl, rfl⟩

/-- Behind the limit of a narrow file system no reader is made, although there is nothing to read
there. -/
theorem not_made_narrow :
    acquire {} 7 2 [98] narrowShelf = (.ok shelved, pinned narrowShelf) ∧
      range [1, 2, 3, 4, 5] 9223372036854775806 1 = [] ∧
      (9223372036854775806 : UInt64).toNat < Offset.signedLimit ∧
      (shelved.create 9223372036854775806 1 (pinned narrowShelf)).1 =
        .error (.transport (.blockUnopened 7 [98])) := by
  refine ⟨rfl, ?_, by decide, rfl⟩
  rw [range, List.drop_eq_nil_of_le (by decide), List.take_nil]

end LocalBlock

end BlockAccess

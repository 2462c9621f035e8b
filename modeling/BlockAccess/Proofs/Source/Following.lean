import BlockAccess.Proofs.Source.Local

/-!
# Readers of a file that may be emptied under them

A reader of a block looks at the file whenever it fetches.  If somebody empties the file in between,
the reader has nothing left but what it fetched before, so it goes on for as long as whole packets
come out of that and fails then.

`Files.ReadStream.Follows` says what is known of an open file then: what it holds are bytes of the
block, and they are followed by the rest of the block unless the file was emptied.  A read keeps it
and gives either the right bytes or too few (`Files.ReadStream.Follows.read`).  The same is carried
over to readers, and `LocalReader.Follows.next` tells the next packet in all cases.
-/

namespace BlockAccess

/-! ## Open files -/

namespace Files.ReadStream

variable {r : ReadStream} {s t : Store} {S u : Bytes} {n place : Nat}

/-- What there is to be read is a matter of the node. -/
theorem Has.congr (h : r.Has s u) (hnode : t.node? r.node = s.node? r.node) : r.Has t u where
  full := h.full
  ended := h.ended
  left := hnode ▸ h.left

/-- What is held was fetched from the block, from a place on; and as long as the file has the
contents of the block, what follows can be read. -/
structure Follows (r : ReadStream) (S : Bytes) (n : Nat) (s : Store) (place : Nat) : Prop where
  ahead : r.ahead <+: S.drop place
  has : s.node? n = some (.file S) → r.Has s (S.drop place)

/-- A stream that has all that follows follows. -/
theorem Has.follows (h : r.Has s (S.drop place)) : r.Follows S n s place where
  ahead := by
    obtain ⟨contents, -, hleft⟩ := h.left
    exact ⟨_, hleft.symm⟩
  has _ := h

/-- Whoever changes a file can empty it, but does not bring back what was in it. -/
theorem Follows.of_node? (h : r.Follows S n s place) (hr : r.node = n)
    (hback : t.node? n = some (.file S) → s.node? n = some (.file S)) : r.Follows S n t place where
  ahead := h.ahead
  has ht := by
    have hs := hback ht
    exact (h.has hs).congr (by rw [hr, ht, hs])

/-- **A read gives the bytes of the block or too few of them.**  It gives too few exactly if the
file was emptied and what was fetched before is not enough. -/
theorem Follows.read {emptied : Bool} (h : r.Follows S n s place) (hr : r.node = n)
    (hfull : r.short = false) (hfile : s.node? n = some (.file (if emptied then [] else S)))
    {k : UInt64} (hk : place + k.toNat ≤ S.length) (hpos : 0 < k.toNat) :
    ∃ got r', r.read s k = (got, none, r') ∧
      (¬(emptied = true ∧ r.ahead.length < k.toNat) ∧ got = (S.drop place).take k.toNat ∧
          r'.Follows S n s (place + k.toNat) ∨
        (emptied = true ∧ r.ahead.length < k.toNat) ∧ got.length < k.toNat ∧
          r'.Follows S n s place) := by
  cases emptied with
  | false =>
    have hlength : k.toNat ≤ (S.drop place).length := by
      rw [List.length_drop]
      omega
    obtain ⟨r', hread, hhas, -⟩ := (h.has hfile).read hlength
    rw [List.drop_drop] at hhas
    exact ⟨_, r', hread, .inl ⟨fun hempty => Bool.false_ne_true hempty.1, rfl, hhas.follows⟩⟩
  | true =>
    -- there is only what was fetched before
    obtain ⟨hbytes, hnone, hahead⟩ := read_emptied (hr ▸ hfile) k
    rw [asked_of_full hfull] at hbytes hahead
    have hnever : s.node? n ≠ some (.file S) := by
      rw [hfile]
      rintro heq
      obtain rfl : [] = S := by simpa using heq
      rw [List.length_nil] at hk
      omega
    refine ⟨_, _, Prod.ext hbytes (Prod.ext hnone rfl), ?_⟩
    obtain ⟨v, hv⟩ := h.ahead
    by_cases henough : k.toNat ≤ r.ahead.length
    · refine .inl ⟨fun hfew => absurd hfew.2 (Nat.not_lt.2 henough), ?_, ?_, ?_⟩
      · rw [← hv, List.take_append_of_le_length henough]
      · rw [hahead, ← List.drop_drop, ← hv, List.drop_append_of_le_length henough]
        exact List.prefix_append ..
      · exact fun hs => absurd hs hnever
    · refine .inr ⟨⟨rfl, Nat.lt_of_not_le henough⟩, ?_, ?_, ?_⟩
      · rw [List.length_take]
        omega
      · rw [hahead, List.drop_eq_nil_of_le (Nat.le_of_not_le henough)]
        exact List.nil_prefix
      · exact fun hs => absurd hs hnever

end Files.ReadStream

/-! ## Readers -/

namespace LocalReader

variable {r : LocalReader} {S : Bytes} {n : Nat} {short emptied : Bool} {s t : Files.Store}
  {file : Files.ReadStream} {w : Site}

/-- A reader of a block whose file may have been emptied. -/
structure Follows (r : LocalReader) (S : Bytes) (n : Nat) (short : Bool) (s : Files.Store) :
    Prop where
  size_ne : r.packetSize ≠ 0
  stop_le : r.position < r.stop → r.stop.toNat ≤ S.length
  stream : ∀ file, r.stream = some file → file.node = n ∧ file.short = short ∧
    (short = false → file.Follows S n s r.position.toNat)

theorem Follows.of_node? (h : r.Follows S n short s)
    (hback : t.node? n = some (.file S) → s.node? n = some (.file S)) : r.Follows S n short t where
  size_ne := h.size_ne
  stop_le := h.stop_le
  stream file hfile := by
    obtain ⟨hnode, hshort, hfollows⟩ := h.stream file hfile
    exact ⟨hnode, hshort, fun hfull => (hfollows hfull).of_node? hnode hback⟩

/-- What a reader of a block gives next, if the file falls short or not, and was emptied or not.
There is nothing at the end of the range.  In front of it the next bytes of the block are given,
unless they have to be fetched from a file that was emptied. -/
def given (r : LocalReader) (S : Bytes) (short emptied : Bool) : Except Failure (Option Packet) :=
  match r.stream with
  | none => .ok none
  | some file =>
    if r.stop ≤ r.position then .ok none
    else if short = true ∨ emptied = true ∧ file.ahead.length < r.nextSize.toNat then
      .error (.transport (.shortRead r.nextSize r.position))
    else .ok (some (.ofBytes (range S r.position r.nextSize)))

/-- Of a file that does not fall short the next packet is the right one exactly if the file was not
emptied or all of it was fetched before. -/
theorem given_eq_iff (hstream : r.stream = some file) (hlt : r.position < r.stop) :
    r.given S false emptied = .ok (some (.ofBytes (range S r.position r.nextSize))) ↔
      (emptied = true → r.nextSize.toNat ≤ file.ahead.length) := by
  rw [given, hstream]
  dsimp only
  rw [if_neg (UInt64.not_le.2 hlt)]
  simp only [Bool.false_eq_true, false_or]
  by_cases hfew : emptied = true ∧ file.ahead.length < r.nextSize.toNat
  · rw [if_pos hfew]
    constructor
    · intro hfailed
      simp at hfailed
    · exact fun henough => absurd hfew.2 (Nat.not_lt.2 (henough hfew.1))
  · rw [if_neg hfew]
    exact ⟨fun _ hgone => Nat.le_of_not_lt fun hless => hfew ⟨hgone, hless⟩, fun _ => rfl⟩

/-- In front of the end of its range a reader moves by what it asks for, and stays in the block. -/
theorem Follows.within (h : r.Follows S n short s) (hend : ¬r.stop ≤ r.position) :
    (r.position + r.nextSize).toNat = r.position.toNat + r.nextSize.toNat ∧
      r.position.toNat + r.nextSize.toNat ≤ S.length := by
  have hlt := UInt64.not_le.1 hend
  obtain ⟨hmoved, hstop⟩ := toNat_position_add (UInt64.le_of_lt hlt)
  exact ⟨hmoved, Nat.le_trans hstop (h.stop_le hlt)⟩

/-- A reader that could not read a packet in full stays where it is. -/
theorem Follows.stay (h : r.Follows S n short s) (hnode : file.node = n)
    (hshort : file.short = short)
    (hfollows : short = false → file.Follows S n s r.position.toNat) :
    ({ r with stream := some file } : LocalReader).Follows S n short s where
  size_ne := h.size_ne
  stop_le := h.stop_le
  stream file' hfile := by
    obtain rfl : file = file' := Option.some.inj hfile
    exact ⟨hnode, hshort, hfollows⟩

/-- A reader that read a packet moves behind it. -/
theorem Follows.advance (h : r.Follows S n short s) (hend : ¬r.stop ≤ r.position)
    (hnode : file.node = n) (hshort : file.short = short)
    (hfollows : short = false → file.Follows S n s (r.position.toNat + r.nextSize.toNat)) :
    ({ r with stream := some file, position := r.position + r.nextSize } : LocalReader).Follows
      S n short s where
  size_ne := h.size_ne
  stop_le _ := h.stop_le (UInt64.not_le.1 hend)
  stream file' hfile := by
    obtain rfl : file = file' := Option.some.inj hfile
    refine ⟨hnode, hshort, fun hfull => ?_⟩
    show file.Follows S n s (r.position + r.nextSize).toNat
    rw [(h.within hend).1]
    exact hfollows hfull

/-- A reader that was closed has nothing to follow. -/
theorem Follows.close (h : r.Follows S n short s) :
    ({ r with stream := none } : LocalReader).Follows S n short s where
  size_ne := h.size_ne
  stop_le := h.stop_le
  stream _ hfile := nomatch hfile

/-- A file that falls short never gives a packet. -/
theorem Follows.next_of_short (h : r.Follows S n true w.files) (hstream : r.stream = some file)
    (hend : ¬r.stop ≤ r.position) :
    (r.next w).1 = .error (.transport (.shortRead r.nextSize r.position)) ∧
      (r.next w).2.1.Follows S n true w.files := by
  obtain ⟨hnode, hshort, -⟩ := h.stream file hstream
  obtain ⟨hnode', hshort'⟩ := file.read_frame w.files r.nextSize
  have hless := Files.ReadStream.length_readNoted_lt hshort (nextSize_pos h.size_ne hend) w
  have hsame := (file.readNoted_eq_read r.nextSize w).2
  rcases hread : file.readNoted r.nextSize w with ⟨got, file', w'⟩
  rw [hread] at hless hsame
  obtain rfl : file' = (file.read w.files r.nextSize).2.2 := hsame
  rw [next_of_readNoted hstream hend hread, if_neg (Nat.ne_of_lt hless)]
  exact ⟨rfl, h.stay (hnode'.trans hnode) (hshort'.trans hshort) fun hfull => nomatch hfull⟩

/-- Any other gives the next packet, unless it was emptied and too little was fetched before. -/
theorem Follows.next_of_full (h : r.Follows S n false w.files) (hstream : r.stream = some file)
    (hend : ¬r.stop ≤ r.position)
    (hfile : w.files.node? n = some (.file (if emptied then [] else S))) :
    (r.next w).1 =
        (if emptied = true ∧ file.ahead.length < r.nextSize.toNat then
          .error (.transport (.shortRead r.nextSize r.position))
        else .ok (some (.ofBytes (range S r.position r.nextSize)))) ∧
      (r.next w).2.1.Follows S n false w.files := by
  obtain ⟨hnode, hshort, hfollows⟩ := h.stream file hstream
  obtain ⟨hnode', hshort'⟩ := file.read_frame w.files r.nextSize
  have hwithin := (h.within hend).2
  obtain ⟨got, file', hread, hcases⟩ :=
    (hfollows rfl).read hnode hshort hfile hwithin (nextSize_pos h.size_ne hend)
  rw [hread] at hnode' hshort'
  rw [next_of_readNoted hstream hend (Files.ReadStream.readNoted_of_read hread)]
  rcases hcases with ⟨henough, rfl, hafter⟩ | ⟨hfew, hless, hafter⟩
  · have hall : ((S.drop r.position.toNat).take r.nextSize.toNat).length = r.nextSize.toNat := by
      rw [List.length_take, List.length_drop]
      omega
    rw [if_pos hall, if_neg henough]
    exact ⟨rfl, h.advance hend (hnode'.trans hnode) (hshort'.trans hshort) fun _ => hafter⟩
  · rw [if_neg (Nat.ne_of_lt hless), if_pos hfew]
    exact ⟨rfl, h.stay (hnode'.trans hnode) (hshort'.trans hshort) fun _ => hafter⟩

/-- **The next packet of a reader**, whatever happened to the file. -/
theorem Follows.next (h : r.Follows S n short w.files)
    (hfile : w.files.node? n = some (.file (if emptied then [] else S))) :
    (r.next w).1 = r.given S short emptied ∧ (r.next w).2.1.Follows S n short w.files := by
  cases hstream : r.stream with
  | none =>
    rw [next_of_none hstream, given, hstream]
    exact ⟨rfl, h⟩
  | some file =>
    rw [given, hstream]
    dsimp only
    by_cases hend : r.stop ≤ r.position
    · rw [next_of_le hend, if_pos hend]
      exact ⟨rfl, h⟩
    rw [if_neg hend]
    cases short with
    | true =>
      rw [if_pos (.inl rfl)]
      exact h.next_of_short hstream hend
    | false =>
      simp only [Bool.false_eq_true, false_or]
      exact h.next_of_full hstream hend hfile

end LocalReader

/-- A reader that was just made follows, also if the block is longer than can be told. -/
theorem LocalBlock.follows_reader {b : LocalBlock} {S : Bytes} {n : Nat} {s : Files.Store}
    (hsize : b.packetSize ≠ 0) (hlength : b.length.toNat ≤ S.length) (short : Bool)
    (offset length : UInt64) :
    (b.reader { node := n, short } offset length).Follows S n short s where
  size_ne := hsize
  stop_le hlt := by
    have hcut : b.length.toNat = (S.take b.length.toNat).length := by
      rw [List.length_take, Nat.min_eq_left hlength]
    have hstop := b.toNat_stop hcut offset length
    have hposition : offset < b.stop offset length := hlt
    show (b.stop offset length).toNat ≤ S.length
    rw [UInt64.lt_iff_toNat_lt] at hposition
    rw [← hcut] at hstop
    omega
  stream file hfile := by
    obtain rfl : ({ node := n, short } : Files.ReadStream).moved offset = file :=
      Option.some.inj hfile
    refine ⟨rfl, rfl, ?_⟩
    rintro rfl
    exact ⟨List.nil_prefix, fun hs => Files.ReadStream.has_moved hs offset⟩

end BlockAccess

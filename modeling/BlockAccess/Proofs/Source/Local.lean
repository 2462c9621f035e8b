import BlockAccess.Proofs.Files.Opened
import BlockAccess.Proofs.Files.Reading
import BlockAccess.Proofs.Source.Conforming
import BlockAccess.Source.Local

/-!
# Local blocks are delivered where files can be positioned

A reader of a local block is positioned at the offset that it is made for, also behind the end of
the file, where there is nothing to be read.  A file system takes offsets up to a limit of its own,
and beyond that limit no reader can be made.

Acquiring a block is opening its file with a shared lock (`LocalBlock.acquire_eq_ok`), so an
acquired block has the length of its file and the file is still there.  It is not a source that
conforms, but one that agrees with such a source as far as the limit goes.  `LocalBlock.ideal` is
that source: it makes readers for all offsets, and it delivers the block (`LocalBlock.conforming`).
Up to the limit the readers are the same (`create_eq_ideal`), and beyond it making one fails
(`create_of_lt`).
-/

namespace BlockAccess

/-! ## Files that are kept -/

namespace Files.Store

variable {s t : Store}

/-- A path leads to a file that can be read as a whole, and these are its contents. -/
structure Keeps (s : Store) (path : Text) (S : Bytes) : Prop where
  contents : s.contents? path = some S
  readable : Text.untilNul path ∉ s.unreadable
  full : Text.untilNul path ∉ s.shortReads
  length_lt : S.length < UInt64.size

/-- Opening a file for reading leads to its node. -/
theorem readStream_of_find {path : Text} {n : Nat} {S : Bytes} (hfind : s.find path = .ok n)
    (hnode : s.node? n = some (.file S)) (hreadable : Text.untilNul path ∉ s.unreadable) :
    s.readStream path =
      .ok { node := n, short := s.shortReads.contains (Text.untilNul path) } := by
  rw [readStream, openNode_read_fst hreadable, hfind]
  dsimp only
  rw [hnode]
  rfl

theorem Keeps.readStream_eq {path : Text} {S : Bytes} (h : s.Keeps path S) : ∃ n,
    s.find path = .ok n ∧ s.node? n = some (.file S) ∧ s.readStream path = .ok { node := n } := by
  obtain ⟨n, hfind, hnode⟩ := contents?_eq_some h.contents
  have hfull : s.shortReads.contains (Text.untilNul path) = false := by simpa using h.full
  refine ⟨n, hfind, hnode, ?_⟩
  rw [readStream_of_find hfind hnode h.readable, hfull]

/-- Opening a file for reading with a lock adds a handle and changes nothing else. -/
theorem openFile_read {path : Text} {lock : Lock} {ticket : Nat}
    (h : s.openFile path .read lock = (.ok ticket, t)) :
    t.nodes = s.nodes ∧ t.unreadable = s.unreadable ∧ t.shortReads = s.shortReads ∧
      t.offsetLimit = s.offsetLimit := by
  have hframe := s.openFile_frame path .read lock
  rw [h, show Mode.read.access = .read from rfl, openNode_read] at hframe
  exact hframe

theorem Keeps.of_openFile {path : Text} {S : Bytes} {lock : Lock} {ticket : Nat}
    (hk : s.Keeps path S) (h : s.openFile path .read lock = (.ok ticket, t)) :
    t.Keeps path S ∧ t.offsetLimit = s.offsetLimit := by
  obtain ⟨hnodes, hunreadable, hshort, hlimit⟩ := openFile_read h
  exact ⟨⟨(contents?_of_nodes hnodes path).trans hk.contents, hunreadable ▸ hk.readable,
    hshort ▸ hk.full, hk.length_lt⟩, hlimit⟩

end Files.Store

/-! ## Readers -/

namespace LocalReader

variable {r : LocalReader} {s : Files.Store} {b : Bytes}

/-- In front of the end of its range a reader asks for at least one byte. -/
theorem nextSize_pos (hsize : r.packetSize ≠ 0) (hlt : ¬r.stop ≤ r.position) :
    0 < r.nextSize.toNat := by
  have hpositive : r.packetSize.toNat ≠ 0 := fun hzero => hsize (UInt64.toNat_inj.1 hzero)
  have hposition : r.position ≤ r.stop :=
    UInt64.le_iff_toNat_le.2 (Nat.le_of_lt (UInt64.not_le.1 hlt))
  have hleft := Offset.toNat_sub hposition
  rw [UInt64.le_iff_toNat_le] at hlt
  rw [nextSize, Offset.toNat_min]
  omega

/-- The next packet ends within the range. -/
theorem toNat_position_add (h : r.position ≤ r.stop) :
    (r.position + r.nextSize).toNat = r.position.toNat + r.nextSize.toNat ∧
      r.position.toNat + r.nextSize.toNat ≤ r.stop.toNat := by
  have hn := UInt64.le_iff_toNat_le.1 r.nextSize_le
  have hleft := Offset.toNat_sub h
  have hstop := UInt64.le_iff_toNat_le.1 h
  have hlimit := r.stop.toNat_lt
  refine ⟨Offset.toNat_add ?_, ?_⟩
  · simp only [UInt64.size]
    omega
  · omega

section

variable {W : Type} [Files.Filed W] [Journaled W] {w : W}

/-- A reader that was closed hands out nothing. -/
theorem next_of_none (h : r.stream = none) (w : W) : r.next w = (.ok none, r, w) := by
  unfold LocalReader.next
  rw [h]

/-- Nor does one at the end of its range. -/
theorem next_of_le (h : r.stop ≤ r.position) (w : W) : r.next w = (.ok none, r, w) := by
  unfold LocalReader.next
  split
  · rfl
  · exact if_pos h

/-- Any other reader asks its file for the next packet, and for all of it. -/
theorem next_of_readNoted {file file' : Files.ReadStream} {got : Bytes} {w' : W}
    (hstream : r.stream = some file) (hend : ¬r.stop ≤ r.position)
    (hread : file.readNoted r.nextSize w = (got, file', w')) :
    r.next w =
      if got.length = r.nextSize.toNat then
        (.ok (some (.ofBytes got)),
          { r with stream := some file', position := r.position + r.nextSize }, w')
      else
        (.error (.transport (.shortRead r.nextSize r.position)), { r with stream := some file' },
          note (.shortRead r.position got.length r.nextSize) w') := by
  unfold LocalReader.next
  rw [hstream]
  dsimp only
  rw [if_neg hend, hread]

end

/-- A reader that has these bytes to hand out: those of its file up to the end of its range. -/
structure Owing (r : LocalReader) (s : Files.Store) (b : Bytes) : Prop where
  size_ne : r.packetSize ≠ 0
  position_le : r.position ≤ r.stop
  rest : ∃ file t, r.stream = some file ∧ file.Has s t ∧ (r.stop - r.position).toNat ≤ t.length ∧
    b = t.take (r.stop - r.position).toNat

theorem Owing.length_eq (h : r.Owing s b) : b.length = r.stop.toNat - r.position.toNat := by
  obtain ⟨file, t, -, -, hle, rfl⟩ := h.rest
  rw [List.length_take, Nat.min_eq_left hle, Offset.toNat_sub h.position_le]

/-- A packet that is cut at the end of the range is cut at the end of what is owed. -/
theorem Owing.nextSize_eq (h : r.Owing s b) :
    r.nextSize.toNat = min r.packetSize.toNat b.length := by
  rw [nextSize, Offset.toNat_min, Offset.toNat_sub h.position_le, h.length_eq]

/-- The file gives the front of what is owed, and the reader owes what is behind it. -/
theorem Owing.read (h : r.Owing s b) : ∃ file file', r.stream = some file ∧
    file.read s r.nextSize = (b.take r.packetSize.toNat, none, file') ∧ file'.node = file.node ∧
      ({ r with
          stream := some file'
          position := r.position + r.nextSize } : LocalReader).Owing s
        (b.drop r.packetSize.toNat) := by
  have hsize := h.nextSize_eq
  have hlength := h.length_eq
  obtain ⟨hpacket, hposition, file, t, hstream, hhas, hle, hb⟩ := h
  have hleft := Offset.toNat_sub hposition
  have hrest := Offset.toNat_sub_add r.nextSize_le hposition
  obtain ⟨hmoved, hwithin⟩ := toNat_position_add hposition
  have hn := UInt64.le_iff_toNat_le.1 r.nextSize_le
  obtain ⟨file', hread, hhas', hsame⟩ := hhas.read (Nat.le_trans hn hle)
  have htake : t.take r.nextSize.toNat = b.take r.packetSize.toNat := by
    rw [hsize, List.take_eq_take_min (l := b), hb, List.take_take, ← hb, hlength]
    congr 1
    omega
  have hdrop : b.drop r.nextSize.toNat = b.drop r.packetSize.toNat := by
    rw [hsize, ← List.drop_eq_drop_min]
  refine ⟨file, file', hstream, htake ▸ hread, hsame, hpacket, ?_, file', _, rfl, hhas', ?_, ?_⟩
  · show r.position + r.nextSize ≤ r.stop
    rw [UInt64.le_iff_toNat_le, hmoved]
    exact hwithin
  · rw [hrest, List.length_drop]
    omega
  · rw [hrest, ← hdrop, hb, List.drop_take]

section

variable {W : Type} [Files.Filed W] [Journaled W] {w : W}

/-- Who owes nothing is at the end of its range. -/
theorem Owing.next_nil (h : r.Owing s []) (w : W) : r.next w = (.ok none, r, w) := by
  have hlength := h.length_eq
  rw [List.length_nil] at hlength
  exact next_of_le (UInt64.le_iff_toNat_le.2 (by omega)) w

/-- A packet is the front of what is owed, and the reader goes on by it. -/
theorem Owing.next_packet (h : r.Owing (Files.Filed.files w) b) (hb : b ≠ []) : ∃ r',
    r.next w = (.ok (some (.ofBytes (b.take r.packetSize.toNat))), r', w) ∧
      r'.Owing (Files.Filed.files w) (b.drop r.packetSize.toNat) ∧
      r'.packetSize = r.packetSize ∧
      r'.position.toNat = r.position.toNat + (b.take r.packetSize.toNat).length := by
  have hsize := h.nextSize_eq
  have hlength := h.length_eq
  have hpositive := List.length_pos_iff.2 hb
  have hend : ¬r.stop ≤ r.position := by
    rw [UInt64.le_iff_toNat_le]
    omega
  obtain ⟨hmoved, -⟩ := toNat_position_add h.position_le
  obtain ⟨file, file', hstream, hread, -, hafter⟩ := h.read
  have hall : (b.take r.packetSize.toNat).length = r.nextSize.toNat := by
    rw [List.length_take, hsize]
  rw [next_of_readNoted hstream hend (Files.ReadStream.readNoted_of_read hread), if_pos hall, hall]
  exact ⟨_, rfl, hafter, rfl, hmoved⟩

/-- A packet is the front of what is owed, and there is none when nothing is. -/
theorem Owing.next (h : r.Owing (Files.Filed.files w) b) :
    r.next w = (.ok none, r, w) ∧ b = [] ∨
    ∃ p r' rest, r.next w = (.ok (some p), r', w) ∧ b = p.unread ++ rest ∧ p.unread ≠ [] ∧
      r'.Owing (Files.Filed.files w) rest := by
  by_cases hb : b = []
  · subst hb
    exact .inl ⟨h.next_nil w, rfl⟩
  · obtain ⟨r', hnext, howing, -⟩ := h.next_packet hb
    have hsize : r.packetSize.toNat ≠ 0 := fun h0 => h.size_ne (UInt64.toNat_inj.1 h0)
    exact .inr ⟨_, r', _, hnext, (List.take_append_drop ..).symm,
      fun hnil => (List.take_eq_nil_iff.1 hnil).elim hsize hb, howing⟩

end

end LocalReader

/-! ## Blocks -/

/-- Opening a file on a site is opening it in the files of the site. -/
theorem Files.openFile_site (path : Text) (mode : Mode) (lock : Lock) (w : Site) :
    (Files.openFile path mode lock w).1 = (w.files.openFile path mode lock).1 ∧
      (Files.openFile path mode lock w).2.files = (w.files.openFile path mode lock).2 := by
  have hsite : Store.openFile (Files.Filed.files w) path mode lock =
      w.files.openFile path mode lock := rfl
  unfold Files.openFile
  rw [hsite]
  rcases hopen : w.files.openFile path mode lock with ⟨r | t, s⟩
  · cases r <;> exact ⟨rfl, rfl⟩
  · exact ⟨rfl, rfl⟩

namespace LocalBlock

variable {address : Address} {id size : UInt64} {path : Text} {w w₀ : Site} {b : LocalBlock}
  {S : Bytes} {limit : Nat}

/-- A block that was acquired is a file that was there, opened with a shared lock. -/
theorem acquire_eq_ok {w' : Site} (h : acquire address id size path w = (.ok b, w')) :
    (w.files.contents? path).isSome ∧
      w.files.openFile path .read .shared = (.ok b.pin, w'.files) ∧
      b = { address, blockId := id, packetSize := size, path, pin := b.pin
            length := .ofNat ((w'.files.contents? path).getD []).length } ∧ size ≠ 0 := by
  unfold acquire at h
  split at h
  · simp at h
  next hsize =>
  split at h
  · simp at h
  next hthere =>
  obtain ⟨hresult, hfiles⟩ := Files.openFile_site path .read .shared w
  split at h
  · simp at h
  next pin w₁ hopen =>
  simp only [Prod.mk.injEq, Except.ok.injEq] at h
  obtain ⟨rfl, rfl⟩ := h
  rw [hopen] at hresult hfiles
  have hsome : (w.files.contents? path).isSome = true := by
    cases hcontents : w.files.contents? path with
    | none => exact absurd (Option.isNone_iff_eq_none.2 hcontents) hthere
    | some S => rfl
  exact ⟨hsome, Prod.ext hresult.symm hfiles.symm, rfl, hsize⟩

/-- A block that could not be acquired left the files alone. -/
theorem files_of_acquire_error {w' : Site} {f : Failure}
    (h : acquire address id size path w = (.error f, w')) :
    w'.files = w.files := by
  unfold acquire at h
  split at h
  · simp only [Prod.mk.injEq] at h
    rw [← h.2]
  split at h
  · simp only [Prod.mk.injEq] at h
    rw [← h.2]
    rfl
  obtain ⟨hresult, hfiles⟩ := Files.openFile_site path .read .shared w
  split at h
  · next r w₁ hopen =>
    simp only [Prod.mk.injEq] at h
    obtain ⟨-, rfl⟩ := h
    rw [hopen] at hresult hfiles
    rcases w.files.openFile_cases path .read .shared with ⟨r', hcase⟩ | ⟨node, -, hcase⟩
    · exact hfiles.trans ((congrArg Prod.snd hcase).trans (w.files.openNode_read path))
    · rw [hcase] at hresult
      simp at hresult
  · simp at h

/-- A block that was opened is the file that was there. -/
theorem acquire_ok (h : acquire address id size path w₀ = (.ok b, w))
    (hk : w₀.files.Keeps path S) :
    b.path = path ∧ b.packetSize ≠ 0 ∧ b.length.toNat = S.length ∧ w.files.Keeps b.path S ∧
      w.files.offsetLimit = w₀.files.offsetLimit := by
  obtain ⟨-, hopen, hb, hsize⟩ := acquire_eq_ok h
  obtain ⟨hkeeps, hlimit⟩ := hk.of_openFile hopen
  rw [hkeeps.contents] at hb
  obtain rfl : b.path = path := congrArg LocalBlock.path hb
  refine ⟨rfl, ?_, ?_, hkeeps, hlimit⟩
  · rw [hb]
    exact hsize
  · rw [hb]
    exact UInt64.toNat_ofNat_of_lt' hk.length_lt

/-- The reader for a range of a file. -/
def reader (b : LocalBlock) (file : Files.ReadStream) (offset length : UInt64) : LocalReader where
  stream := some (file.moved offset)
  position := offset
  stop := b.stop offset length
  packetSize := b.packetSize

/-- A range ends where it was asked to end or where the block does, and not before its start. -/
theorem toNat_stop (hlength : b.length.toNat = S.length) (offset length : UInt64) :
    (b.stop offset length).toNat = offset.toNat + min length.toNat (S.length - offset.toNat) := by
  have hmin : min offset b.length ≤ b.length := by
    rw [UInt64.le_iff_toNat_le, Offset.toNat_min]
    exact Nat.min_le_right ..
  have hcut : (min length (b.length - min offset b.length)).toNat =
      min length.toNat (S.length - offset.toNat) := by
    rw [Offset.toNat_min, Offset.toNat_sub hmin, Offset.toNat_min, hlength]
    omega
  have hblock := b.length.toNat_lt
  have hoffset := offset.toNat_lt
  rw [stop, Offset.toNat_add (by rw [hcut]; simp only [UInt64.size]; omega), hcut]

theorem owing_reader (hsize : b.packetSize ≠ 0) (hlength : b.length.toNat = S.length)
    {s : Files.Store} {n : Nat} (hfile : s.node? n = some (.file S)) (offset length : UInt64) :
    (b.reader { node := n } offset length).Owing s (range S offset length) := by
  have hstop := b.toNat_stop hlength offset length
  have hle : offset ≤ b.stop offset length := by
    rw [UInt64.le_iff_toNat_le, hstop]
    exact Nat.le_add_right ..
  have hleft : (b.stop offset length - offset).toNat =
      min length.toNat (S.length - offset.toNat) := by
    rw [Offset.toNat_sub hle, hstop, Nat.add_sub_cancel_left]
  refine ⟨hsize, hle, _, S.drop offset.toNat, rfl, Files.ReadStream.has_moved hfile offset, ?_, ?_⟩
  · show (b.stop offset length - offset).toNat ≤ _
    rw [hleft, List.length_drop]
    exact Nat.min_le_right ..
  · show _ = (S.drop offset.toNat).take (b.stop offset length - offset).toNat
    rw [hleft, range, ← List.length_drop, ← List.take_eq_take_min]

/-- The block as a source that makes readers for all offsets. -/
def ideal (b : LocalBlock) : Source Site LocalReader :=
  { b.source with
    create := fun offset length w =>
      match w.files.readStream b.path with
      | .ok file => (.ok (b.reader file offset length), w)
      | .error _ => b.create offset length w }

/-- The file is still there, on a file system with this limit. -/
structure Kept (b : LocalBlock) (S : Bytes) (limit : Nat) (w : Site) : Prop where
  keeps : w.files.Keeps b.path S
  limit_eq : w.files.offsetLimit = limit

/-- **A local block is delivered** where readers can be made for all offsets. -/
def conforming (hsize : b.packetSize ≠ 0) (hlength : b.length.toNat = S.length) (limit : Nat) :
    b.ideal.Conforming S where
  Fair := b.Kept S limit
  Owes r w u _ := r.Owing w.files u
  fair_note _ h := ⟨h.keeps, h.limit_eq⟩
  fair_release _ h := h
  owes_note _ h := h
  owes_release _ h := h
  create {w} offset length h := by
    obtain ⟨n, -, hnode, hread⟩ := h.keeps.readStream_eq
    refine ⟨b.reader { node := n } offset length, w, ?_, h, owing_reader hsize hlength hnode ..⟩
    simp only [ideal, hread]
  next {r w u e} hw h := by
    rcases LocalReader.Owing.next (w := w) h with ⟨hn, hu⟩ | ⟨p, r', rest, hn, hu, hne, ho⟩
    · exact .inl ⟨r, w, hn, hw, hu, hu ▸ h⟩
    · exact .inr ⟨p, r', w, rest, hn, hw, hu, .inl ⟨hne, ho⟩⟩
  close {r w u e} hw _ := ⟨{ r with stream := none }, w, rfl, hw⟩

/-- Whether a reader is made is a matter of the offset. -/
theorem create_of_readStream {file : Files.ReadStream}
    (h : w.files.readStream b.path = .ok file) (hfile : w.files.node? file.node = some (.file S))
    (offset length : UInt64) :
    b.create offset length w =
      if w.files.offsetLimit < offset.toNat then
        (.error (.transport (.blockUnopened b.blockId b.path)),
          note (.seekFailed b.path offset Files.Refusal.invalid.reason) w)
      else (.ok (b.reader file offset length), w) := by
  have hread : (Files.Filed.files w).readStream b.path = .ok file := h
  have hnode : (Files.Filed.files w).node? file.node = some (.file S) := hfile
  have hlimit : (Files.Filed.files w).offsetLimit = w.files.offsetLimit := rfl
  unfold create Files.beginReadAt Files.beginRead
  rw [hread]
  dsimp only
  rw [hnode, Option.bind_some, hlimit, Files.Node.obstacle?]
  by_cases hle : w.files.offsetLimit < offset.toNat
  · rw [if_pos hle, if_pos hle]
  · rw [if_neg hle, if_neg hle]
    rfl

/-- Up to the limit readers are made as they should be. -/
theorem create_eq_ideal (hw : b.Kept S limit w) {offset : UInt64} (h : offset.toNat ≤ limit)
    (length : UInt64) : b.create offset length w = b.ideal.create offset length w := by
  obtain ⟨n, -, hnode, hread⟩ := hw.keeps.readStream_eq
  rw [create_of_readStream hread hnode, hw.limit_eq, if_neg (Nat.not_lt.2 h)]
  simp only [ideal, hread]

/-- Beyond the limit no reader is made. -/
theorem create_of_lt (hw : b.Kept S limit w) {offset : UInt64} (h : limit < offset.toNat)
    (length : UInt64) : ∃ w', b.create offset length w =
      (.error (.transport (.blockUnopened b.blockId b.path)), w') := by
  obtain ⟨n, -, hnode, hread⟩ := hw.keeps.readStream_eq
  rw [create_of_readStream hread hnode, hw.limit_eq, if_pos h]
  exact ⟨_, rfl⟩

end LocalBlock

end BlockAccess

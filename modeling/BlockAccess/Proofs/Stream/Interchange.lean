import BlockAccess.Proofs.Source.Pinning
import BlockAccess.Proofs.Source.Remote
import BlockAccess.Proofs.Stream.Agreement

/-!
# Local and remote access are interchangeable as far as files go

A block can be read from its file or from a worker that keeps it.  Both deliver it, so a client
whose queries do not depend on how a block is cut gets the same answers from both, whatever sizes of
packets were chosen and however the worker cuts its ranges.

There is one reservation.  The declared length of a block may be larger than any offset that the
file system takes.  A remote stream that is moved to such a place is at its end there; over the file
no reader can be made, although there would be nothing to be read.  `interchangeable_iff` says that
this is all that can go wrong: the answers are the same, and every query that is in order is
answered, exactly if the declared length is within the limit of the file system.
-/

namespace BlockAccess

open Wire (Request Response)
open Offset

/-! ## Either side -/

/-- All queries of a run that are in order are answered by a cursor. -/
theorem Cursor.replies_ok {S : Bytes} {id length : UInt64} (k : Cursor) (qs : List Query) :
    ∀ a ∈ k.replies S id length qs, a.1.InOrder length → ∃ x, a.2.result = .ok x := by
  induction qs generalizing k with
  | nil => exact fun a ha => absurd ha List.not_mem_nil
  | cons q qs ih =>
    rw [replies, List.forall_mem_cons]
    exact ⟨k.reply_ok, ih _⟩

namespace Stream

variable {S : Bytes} {length : UInt64}

/-- A stream over a remote block answers as a cursor does. -/
theorem replies_remote (hL : length.toNat < signedLimit) {address : Address} {request : Request}
    {react : Request → Connection → Site → List Bytes} {peer : Option Worker}
    {dial : Dialler Site Connection} {far : RemoteBlock Site Connection}
    (hfar : RemoteBlock.make address request (Connection.answered react) (some dial) = .ok far)
    (hdial : RemoteBlock.Dials dial address peer)
    (hreact : Connection.Answers react peer S request.blockId request.packetSize)
    (hsize : Response.fixedSize + request.packetSize.toNat ≤ Wire.Frame.bodyLimit) (v : Site)
    (block : UInt64) (qs : List Query) :
    replies far.source qs (start block length, v) = Cursor.replies S block length {} qs := by
  unfold RemoteBlock.make at hfar
  split at hfar
  · simp at hfar
  obtain rfl := Except.ok.inj hfar
  have hstands :=
    stands_start (RemoteBlock.conforming hdial hreact hsize) (w := v) trivial block length
  exact hstands.replies hL (fun _ _ _ h => h) qs

section

variable {near : LocalBlock} {limit : Nat} {w : Site}

/-- A local block and its ideal make the same readers up to the limit. -/
theorem agree_ideal (hsize : near.packetSize ≠ 0) (hlength : near.length.toNat = S.length) :
    (near.source : Source Site LocalReader).AgreeUpTo near.ideal limit
      (LocalBlock.conforming hsize hlength limit).Fair where
  others := rfl
  create hw hle length := LocalBlock.create_eq_ideal hw hle length

/-- A stream over a local block answers as a cursor does, if its declared length is within the limit
of the file system. -/
theorem replies_local (hL : length.toNat < signedLimit) (hsize : near.packetSize ≠ 0)
    (hlength : near.length.toNat = S.length) (hw : near.Kept S limit w)
    (hle : length.toNat ≤ limit) (block : UInt64) (qs : List Query) :
    replies near.source qs (start block length, w) = Cursor.replies S block length {} qs := by
  have hstands := stands_start (LocalBlock.conforming hsize hlength limit) hw block length
  have hdetached : (LocalBlock.conforming hsize hlength limit).Detached :=
    LocalBlock.detached hsize hlength limit
  have hagree := hstands.replies_agree (agree_ideal hsize hlength) hle hL hdetached qs
  rw [hagree]
  exact hstands.replies hL hdetached qs

/-- A read fails where no reader can be made. -/
theorem readByte_of_create {W R : Type} [Journaled W] {src : Source W R} {s : Stream R} {w w' : W}
    {f : Failure} (hopen : s.closed = false) (hreader : s.reader = none)
    (hcreate : src.create s.position s.rest
      (note (.creatingReader s.block s.position s.rest) w) = (.error f, w')) :
    s.readByte src w = (.error f, s, w') := by
  have hone : ¬(1 : UInt64) = 0 := by decide
  unfold readByte readSome fetch fill withReader
  simp only [hopen, hreader, hcreate, hone, Bool.false_eq_true, if_false]

/-- Moving to the declared end and reading there. -/
def toTheEnd (length : UInt64) : List Query := [.seek length.toInt64, .byte]

/-- Beyond the limit of the file system there is nothing to be read, but an attempt fails. -/
theorem replies_toTheEnd (hL : length.toNat < signedLimit) (hw : near.Kept S limit w)
    (hlt : limit < length.toNat) (block : UInt64) :
    replies near.source (toTheEnd length) (start block length, w) =
      [(.seek length.toInt64, { result := .ok .done }),
        (.byte, { result := .error (.transport (.blockUnopened near.blockId near.path)) })] := by
  have hvalue := toInt_toInt64 hL
  have hto : length.toInt64.toUInt64 = length := UInt64.toUInt64_toInt64 length
  have hne : length ≠ 0 := by
    rintro rfl
    exact Nat.not_lt_zero _ hlt
  let fresh : Stream LocalReader := start block length
  let moved : Stream LocalReader := { fresh with position := length }
  have hseek : fresh.seek near.source length.toInt64 w = (.ok (), moved, w) := by
    have hle : length.toInt64.toUInt64 ≤ fresh.length := hto.symm ▸ UInt64.le_refl length
    have hmoves : length.toInt64.toUInt64 ≠ fresh.position := hto.symm ▸ hne
    have hnothing : (fresh.rewound length.toInt64.toUInt64).dropReader near.source w =
        (.ok (), fresh, w) := by
      rw [hto]
      rfl
    rw [seek_of_ne rfl (by omega) hle hmoves hnothing, hto]
    rfl
  have hkept : near.Kept S limit (note (.creatingReader block length moved.rest) w) :=
    ⟨hw.keeps, hw.limit_eq⟩
  obtain ⟨w', hcreate⟩ := LocalBlock.create_of_lt hkept hlt moved.rest
  have hread : moved.readByte near.source w = _ := readByte_of_create rfl rfl hcreate
  simp only [replies, toTheEnd, ask, perform]
  rw [hseek]
  dsimp only
  rw [hread]
  rfl

end

/-! ## Both sides -/

/-- **Local and remote access are interchangeable exactly up to the limit of the file system.**  A
block `S` is kept in a file that was opened locally, and by whatever answers on the connections to
another place, which may cut ranges as it likes.  Both streams declare the same length below 2^63.
The packet sizes on both sides may differ and are only bound by what can be opened and what fits
into a frame.  Then the remote stream answers as a cursor over the block does; and all queries get
the same answers from both, and none that is in order fails, if and only if files can be positioned
at the declared end. -/
theorem interchangeable_iff (hL : length.toNat < signedLimit)
    {address : Address} {id size : UInt64} {path : Text} {w₀ w : Site} {near : LocalBlock}
    (hnear : LocalBlock.acquire address id size path w₀ = (.ok near, w))
    (hfile : w₀.files.Keeps path S)
    {address' : Address} {request : Request} {react : Request → Connection → Site → List Bytes}
    {peer : Option Worker} {dial : Dialler Site Connection} {far : RemoteBlock Site Connection}
    (hfar : RemoteBlock.make address' request (Connection.answered react) (some dial) = .ok far)
    (hdial : RemoteBlock.Dials dial address' peer)
    (hreact : Connection.Answers react peer S request.blockId request.packetSize)
    (hsize : Response.fixedSize + request.packetSize.toNat ≤ Wire.Frame.bodyLimit) (v : Site)
    (block : UInt64) :
    (∀ qs, replies far.source qs (start block length, v) =
        Cursor.replies S block length {} qs) ∧
      ((∀ qs, replies near.source qs (start block length, w) =
          replies far.source qs (start block length, v) ∧
        ∀ a ∈ replies near.source qs (start block length, w),
          a.1.InOrder length → ∃ x, a.2.result = .ok x) ↔
        length.toNat ≤ w₀.files.offsetLimit) := by
  obtain ⟨-, hpacket, hlength, hkeeps, hlimit⟩ := LocalBlock.acquire_ok hnear hfile
  have hw : near.Kept S w₀.files.offsetLimit w := ⟨hkeeps, hlimit⟩
  have hcursor := replies_remote hL hfar hdial hreact hsize v block
  refine ⟨hcursor, ?_, ?_⟩
  · intro h
    refine Nat.le_of_not_lt fun hlt => ?_
    have hfails := replies_toTheEnd hL hw hlt block
    obtain ⟨-, hok⟩ := h (toTheEnd length)
    rw [hfails] at hok
    obtain ⟨x, hx⟩ := hok _ (.tail _ (.head _)) trivial
    simp at hx
  · intro hle qs
    rw [replies_local hL hpacket hlength hw hle, hcursor]
    exact ⟨rfl, Cursor.replies_ok {} qs⟩

/-! ### A library with a worker -/

/-- A file of five bytes called `b`, on a file system that takes all offsets that are not below
zero. -/
def shelf : Site where
  files := { nodes := #[.directory 0 [([98], 1)], .file [1, 2, 3, 4, 5]] }

theorem keeps_shelf : shelf.files.Keeps [98] [1, 2, 3, 4, 5] :=
  ⟨by decide, by decide, by decide, by decide⟩

/-- The file in packets of two bytes. -/
def shelved : LocalBlock where
  address := {}
  blockId := 7
  packetSize := 2
  path := [98]
  length := 5
  pin := 0

/-- What is left behind when it is opened: a shared lock on the file. -/
def pinned (w : Site) : Site :=
  { w with files := { w.files with
      handles := [{ ticket := 0, node := 1, lock := .shared }]
      nextTicket := 1 } }

theorem acquire_shelved : LocalBlock.acquire {} 7 2 [98] shelf = (.ok shelved, pinned shelf) := rfl

/-- A worker that keeps the same bytes as its block 7. -/
def librarian : Worker where
  block := [1, 2, 3, 4, 5]
  blockId := 7

/-- A network where the worker is found everywhere. -/
def everywhere : Network where
  dial _ _ := .answered librarian

/-- The block over that network, in packets of three bytes. -/
def lent : RemoteBlock Site Connection where
  address := {}
  request := { blockId := 7, packetSize := 3 }
  channels := Connection.channel
  dial := Dialler.network everywhere 0

theorem make_lent :
    RemoteBlock.make {} lent.request (Connection.answered Connection.replying) (some lent.dial) =
      .ok lent := by
  rw [Connection.answered_replying]
  rfl

theorem dials_lent : RemoteBlock.Dials lent.dial {} (some librarian) :=
  have hmeets : everywhere.dial {} 0 = .answered librarian := rfl
  Dialler.dials_network hmeets

theorem answers_lent : Connection.Answers (W := Site) Connection.replying (some librarian)
    [1, 2, 3, 4, 5] lent.request.blockId lent.request.packetSize :=
  librarian.answers (by decide) (by decide)

theorem fits_lent :
    Response.fixedSize + lent.request.packetSize.toNat ≤ Wire.Frame.bodyLimit := by decide

/-- Both sides with the largest length that can be declared. -/
theorem interchangeable_iff_library :
    LocalBlock.acquire {} 7 2 [98] shelf = (.ok shelved, pinned shelf) ∧
      RemoteBlock.make {} lent.request Connection.channel (some lent.dial) = .ok lent ∧
      ∀ qs, replies shelved.source qs (start 7 9223372036854775807, pinned shelf) =
        replies lent.source qs (start 7 9223372036854775807, shelf) := by
  have hL : (9223372036854775807 : UInt64).toNat < signedLimit := by decide
  obtain ⟨-, hiff⟩ := interchangeable_iff hL acquire_shelved keeps_shelf make_lent dials_lent
    answers_lent fits_lent shelf 7
  exact ⟨acquire_shelved, rfl, fun qs => (hiff.2 (by decide) qs).1⟩

/-- The same file on a file system that takes offsets up to 17592186040320. -/
def narrowShelf : Site where
  files := { shelf.files with offsetLimit := 17592186040320 }

/-- On the narrow file system the two streams answer differently behind its limit. -/
theorem not_interchangeable_narrow :
    LocalBlock.acquire {} 7 2 [98] narrowShelf = (.ok shelved, pinned narrowShelf) ∧
      replies shelved.source (toTheEnd 9223372036854775807)
          (start 7 9223372036854775807, pinned narrowShelf) ≠
        replies lent.source (toTheEnd 9223372036854775807)
          (start 7 9223372036854775807, narrowShelf) := by
  have hL : (9223372036854775807 : UInt64).toNat < signedLimit := by decide
  have hkeeps : (pinned narrowShelf).files.Keeps [98] [1, 2, 3, 4, 5] :=
    ⟨by decide, by decide, by decide, by decide⟩
  have hkept : shelved.Kept [1, 2, 3, 4, 5] 17592186040320 (pinned narrowShelf) := ⟨hkeeps, rfl⟩
  refine ⟨rfl, fun heq => ?_⟩
  rw [replies_toTheEnd hL hkept (by decide),
    replies_remote hL make_lent dials_lent answers_lent fits_lent] at heq
  have hfailed := congrArg (List.map fun a => a.2.result.toOption.isSome) heq
  revert hfailed
  decide

end Stream

end BlockAccess

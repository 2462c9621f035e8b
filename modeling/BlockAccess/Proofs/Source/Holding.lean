import BlockAccess.Opening
import BlockAccess.Proofs.Acts
import BlockAccess.Proofs.Source.Pinning
import BlockAccess.Source.Scripted

/-!
# Clients that hold files

A client opens local blocks, as they are or with a stream over them, reads them in any way, opens
files with locks of its own, and closes what it has opened, all in any order.  `Client.held` is its
book: an entry is made when something is opened, for the file that the path leads to at that moment,
and closed when the client closes it.  The book is kept from the calls alone and knows nothing of
handles but their numbers.

Here is what a single use of a thing does.  What does not close it leaves the files alone
(`Asset.files_use`), and what closes it closes its handle, also if the reader of a stream cannot be
closed (`Asset.files_use_of_close`).
-/

namespace BlockAccess

open Files (Handle Lock Mode Store)

/-! ## A client and what it holds -/

/-- Where a client finds a local block: at a path, or where settings and a mount say. -/
inductive Locator where
  | stored (address : Address) (block size : UInt64) (path : Text)
  | configured (mount : Mount) (settings : Settings) (address : Address) (block : UInt64)

/-- Opens the block. -/
def Locator.acquire : Locator → Site → Except Failure LocalBlock × Site
  | .stored address block size path, w => LocalBlock.acquire address block size path w
  | .configured m s address block, w => LocalBlock.ofSettings m s address block w

theorem Locator.acquire_cases {l : Locator} {w w' : Site} {x : Except Failure LocalBlock}
    (h : l.acquire w = (x, w')) :
    (∃ f, x = .error f) ∧ w'.files = w.files ∨
      ∃ b node S, x = .ok b ∧ (w.files.openNode b.path .read).1 = .ok node ∧
        w.files.find b.path = .ok node ∧ w.files.node? node = some (.file S) ∧
        Files.Opened w.files w'.files node .shared b.pin := by
  cases l with
  | stored address block size path => exact LocalBlock.acquire_cases h
  | configured m s address block =>
    unfold Locator.acquire LocalBlock.ofSettings at h
    dsimp only at h
    split at h
    · simp only [Prod.mk.injEq] at h
      obtain ⟨rfl, rfl⟩ := h
      exact .inl ⟨⟨_, rfl⟩, rfl⟩
    split at h
    · simp only [Prod.mk.injEq] at h
      obtain ⟨rfl, rfl⟩ := h
      exact .inl ⟨⟨_, rfl⟩, rfl⟩
    · have hcases := LocalBlock.acquire_cases h
      exact hcases

/-- What a client can hold a file by. -/
inductive Asset where
  | stream (b : LocalBlock) (s : Stream LocalReader)
  | block (b : LocalBlock) (readers : List LocalReader)
  | file (ticket : Nat)

namespace Asset

/-- The handle that was given for it. -/
def ticket : Asset → Nat
  | stream b _ | block b _ => b.pin
  | file t => t

/-- The block, if it is one or a stream over one. -/
def block? : Asset → Option LocalBlock
  | stream b _ | block b _ => some b
  | file _ => none

end Asset

/-- What a client does with what it holds. -/
inductive Use where
  /-- A call on a stream. -/
  | call (op : Stream.Op)
  /-- Makes a reader of a block. -/
  | create (offset length : UInt64)
  /-- Asks a reader of a block for its next packet. -/
  | next (reader : Nat)
  | closeReader (reader : Nat)
  /-- Closes a block or a file. -/
  | close

/-- Whether this is the way to close a thing. -/
def Asset.closedBy : Asset → Use → Bool
  | .stream .., .call .close | .block .., .close | .file _, .close => true
  | _, _ => false

section

variable (trouble : LocalReader → Site → Option Failure)

/-- Uses a thing; gives whether that ended well.  Asking of a thing what it cannot do fails. -/
def Asset.use : Asset → Use → Site → Bool × Asset × Site
  | .stream b s, .call op, w =>
    match Stream.perform (b.troubled trouble) op s w with
    | (outcome, s, w) => (Source.succeeded outcome.result, .stream b s, w)
  | .block b readers, .create offset length, w =>
    match b.create offset length w with
    | (.ok r, w) => (true, .block b (readers ++ [r]), w)
    | (.error _, w) => (false, .block b readers, w)
  | .block b readers, .next i, w =>
    match readers[i]? with
    | none => (false, .block b readers, w)
    | some r =>
      match r.next w with
      | (x, r, w) => (Source.succeeded x, .block b (readers.set i r), w)
  | .block b readers, .closeReader i, w =>
    match readers[i]? with
    | none => (false, .block b readers, w)
    | some r =>
      match (b.troubled trouble).close r w with
      | (x, r, w) => (Source.succeeded x, .block b (readers.set i r), w)
  | .block b readers, .close, w =>
    match b.shutDown w with
    | (x, w) => (Source.succeeded x, .block b readers, w)
  | .file t, .close, w => (true, .file t, Files.closeFile t w)
  | a, _, w => (false, a, w)

end

/-- An entry in the book of a client: what it holds a file by, the file, and by which lock. -/
structure Held where
  asset : Asset
  node : Nat
  lock : Lock
  isClosed : Bool := false

/-- The handle that an entry stands for. -/
def Held.handle (h : Held) : Handle where
  ticket := h.asset.ticket
  node := h.node
  lock := h.lock

/-- A client: its surroundings, and the book of what it holds, the latest entry last. -/
structure Client where
  site : Site
  held : List Held := []

namespace Client

/-- The entries that the client has not closed. -/
def standing (c : Client) : List Held := c.held.filter (!·.isClosed)

/-- The client with another site and a new entry for the file that a path leads to, opened for
`access`. -/
def enter (c : Client) (asset : Asset) (path : Text) (access : Files.Access) (lock : Lock)
    (w : Site) : Client :=
  match (c.site.files.openNode path access).1 with
  | .ok node => { site := w, held := c.held ++ [{ asset, node, lock }] }
  | .error _ => { c with site := w }

/-- Opens a block; `asset` says what is made of it. -/
def openBlock (c : Client) (l : Locator) (asset : LocalBlock → Asset) : Bool × Client :=
  match l.acquire c.site with
  | (.ok b, w) => (true, c.enter (asset b) b.path .read .shared w)
  | (.error _, w) => (false, { c with site := w })

/-- Opens a file with a lock. -/
def openFile (c : Client) (path : Text) (mode : Mode) (lock : Lock) : Bool × Client :=
  match Files.openFile path mode lock c.site with
  | (.ok t, w) => (true, c.enter (.file t) path mode.access lock w)
  | (.error _, w) => (false, { c with site := w })

/-- A call of a client. -/
inductive Call where
  | openBlock (l : Locator)
  | openStream (l : Locator) (length : UInt64)
  | openFile (path : Text) (mode : Mode) (lock : Lock)
  /-- Uses what an entry stands for. -/
  | use (entry : Nat) (u : Use)

/-- The lock that a call asks for, if it opens something. -/
def Call.lock? : Call → Option Lock
  | openBlock _ | openStream .. => some .shared
  | openFile _ _ lock => some lock
  | use .. => none

/-- Makes a call; gives whether it ended well. -/
def perform (trouble : LocalReader → Site → Option Failure) (call : Call) (c : Client) :
    Bool × Client :=
  match call with
  | .openBlock l => c.openBlock l fun b => .block b []
  | .openStream l length => c.openBlock l fun b => .stream b (Stream.start b.blockId length)
  | .openFile path mode lock => c.openFile path mode lock
  | .use i u =>
    match c.held[i]? with
    | none => (false, c)
    | some h =>
      match h.asset.use trouble u c.site with
      | (x, a, w) =>
        (x, { site := w
              held := c.held.set i
                { h with asset := a, isClosed := h.isClosed || h.asset.closedBy u } })

end Client

/-! ## Using a thing -/

namespace Asset

variable (trouble : LocalReader → Site → Option Failure)

theorem ticket_use (a : Asset) (u : Use) (w : Site) :
    (a.use trouble u w).2.1.ticket = a.ticket := by
  unfold use
  repeat' split
  all_goals rfl

theorem block?_use (a : Asset) (u : Use) (w : Site) :
    (a.use trouble u w).2.1.block? = a.block? := by
  unfold use
  repeat' split
  all_goals rfl

/-- Only a stream is one afterwards. -/
theorem eq_stream_of_use {trouble : LocalReader → Site → Option Failure} {a : Asset} {u : Use}
    {w : Site} {b : LocalBlock} {s : Stream LocalReader}
    (h : (a.use trouble u w).2.1 = .stream b s) : ∃ s₀, a = .stream b s₀ := by
  have hblock := block?_use trouble a u w
  cases a with
  | stream b₀ s₀ =>
    rw [h] at hblock
    obtain rfl : b = b₀ := Option.some.inj hblock
    exact ⟨s₀, rfl⟩
  | block b₀ readers =>
    unfold use at h
    repeat' split at h
    all_goals simp_all
  | file t =>
    rw [h] at hblock
    simp [block?] at hblock

/-- What does not close a thing leaves the files alone. -/
theorem files_use {a : Asset} {u : Use} (hu : a.closedBy u = false) (w : Site) :
    (a.use trouble u w).2.2.files = w.files := by
  cases a with
  | stream b s =>
    cases u with
    | call op =>
      show (Stream.step (b.troubled trouble) op (s, w)).after.2.files = w.files
      cases op with
      | readAt target memory offset count =>
        exact ((b.upholds_files trouble w.files _ _).step_readAt (p := (s, w)) rfl).2
      | close => simp [closedBy] at hu
      | _ => exact (b.upholds_files trouble w.files _ _).step (p := (s, w)) rfl rfl
    | _ => rfl
  | block b readers =>
    cases u with
    | create offset length =>
      have hcreate := b.files_create offset length w
      unfold use
      dsimp only
      split
      · next h => rwa [h] at hcreate
      · next h => rwa [h] at hcreate
    | next i =>
      unfold use
      dsimp only
      split
      · rfl
      · next r _ => exact LocalBlock.files_next r w
    | closeReader i =>
      unfold use
      dsimp only
      split
      · rfl
      · next r _ => exact (b.upholds_files trouble w.files 0 0).close rfl rfl
    | close => simp [closedBy] at hu
    | call op => rfl
  | file t =>
    cases u with
    | close => simp [closedBy] at hu
    | _ => rfl

/-- What closes a thing closes its handle, whether or not it ends well. -/
theorem files_use_of_close {a : Asset} {u : Use} (hu : a.closedBy u = true) {w : Site}
    (hstream : ∀ b s, a = .stream b s → s.closed = true → w.files.isOpen b.pin = false) :
    (a.use trouble u w).2.2.files = w.files.close a.ticket := by
  cases a with
  | stream b s =>
    obtain rfl : u = .call .close := by
      unfold closedBy at hu
      split at hu <;> simp_all
    show (s.close (b.troubled trouble) w).2.2.files = w.files.close b.pin
    cases hclosed : s.closed with
    | true =>
      rw [Stream.close, if_pos hclosed]
      exact (Store.close_of_not_isOpen (hstream b s rfl hclosed)).symm
    | false =>
      obtain ⟨w₁, hfiles, hafter⟩ :=
        (b.upholds_files trouble w.files 0 0).closing (w := w) hclosed rfl
      have hshut := b.files_shutDown w₁
      rw [hafter, ← hfiles]
      exact hshut
  | block b readers =>
    obtain rfl : u = .close := by
      unfold closedBy at hu
      split at hu <;> simp_all
    exact b.files_shutDown w
  | file t =>
    obtain rfl : u = .close := by
      unfold closedBy at hu
      split at hu <;> simp_all
    rfl

/-- A stream knows whether it was closed. -/
theorem closed_use {b : LocalBlock} {s : Stream LocalReader} (hs : s.Tidy) (u : Use) (w : Site) :
    ∃ s', ((stream b s).use trouble u w).2.1 = .stream b s' ∧ s'.Tidy ∧
      s'.closed = (s.closed || (stream b s).closedBy u) := by
  cases u with
  | call op =>
    refine ⟨(Stream.step (b.troubled trouble) op (s, w)).after.1, rfl,
      (Stream.step_tidy (b.troubled trouble) op (p := (s, w)) hs).1, ?_⟩
    by_cases hop : op = .close
    · subst hop
      have hafter := Stream.close_snd (b.troubled trouble) s w
      show (s.close (b.troubled trouble) w).2.1.closed = (s.closed || true)
      rw [hafter, Bool.or_true]
      split
      · next h => exact h
      · rfl
    · obtain ⟨-, -, hclosed, -⟩ := Stream.step_keeps (b.troubled trouble) hop (p := (s, w)) hs
      have hopen : (stream b s).closedBy (.call op) = false := by
        cases op <;> first | rfl | exact absurd rfl hop
      rw [hopen, Bool.or_false]
      exact hclosed
  | _ => exact ⟨s, rfl, hs, (Bool.or_false _).symm⟩

end Asset

end BlockAccess

import BlockAccess.Proofs.Source.Local
import BlockAccess.Proofs.Stream.Queries
import BlockAccess.Proofs.Stream.Upheld

/-!
# What a local block does to the files

Acquiring a local block opens its file with a shared lock, or changes nothing
(`LocalBlock.acquire_cases`).  Shutting it down closes that handle.  In between no operation of the
block touches the files at all; `LocalBlock.upholds_files` says so in the form in which it holds for
all calls on a stream as well.

A reader of a local block can always be closed.  Who wants to say what becomes of the lock if one
cannot takes `LocalBlock.troubled`, whose readers fail to close as they like.
-/

namespace BlockAccess

open Files (Mode Lock Store)

/-! ## Local blocks and the files of a site -/

namespace LocalBlock

variable {b : LocalBlock} {w : Site}

/-- A local block whose readers may fail to close, as `trouble` says. -/
def troubled (b : LocalBlock) (trouble : LocalReader → Site → Option Failure) :
    Source Site LocalReader :=
  { b.source with
    close := fun r w =>
      match trouble r w with
      | none => r.close w
      | some f => (.error f, { r with stream := none }, w) }

/-- A block without trouble is the block as it is. -/
theorem troubled_none (b : LocalBlock) : b.troubled (fun _ _ => none) = b.source := rfl

theorem files_create (b : LocalBlock) (offset length : UInt64) (w : Site) :
    (b.create offset length w).2.files = w.files := by
  have hread : (Files.beginRead b.path w).2.files = w.files := by
    unfold Files.beginRead
    split <;> rfl
  have hreadAt : (Files.beginReadAt b.path offset w).2.files = w.files := by
    unfold Files.beginReadAt
    split
    · next h => rwa [h] at hread
    next h =>
    rw [h] at hread
    split
    · exact hread
    · exact hread
  unfold create
  split
  · next h => rwa [h] at hreadAt
  · next h => rwa [h] at hreadAt

theorem files_next (r : LocalReader) (w : Site) : (r.next w).2.2.files = w.files := by
  have hread (file : Files.ReadStream) (n : UInt64) : (file.readNoted n w).2.2.files = w.files := by
    unfold Files.ReadStream.readNoted
    split <;> rfl
  unfold LocalReader.next
  split
  · rfl
  split
  · rfl
  next file _ _ =>
  have hfile := hread file r.nextSize
  split
  next h =>
  rw [h] at hfile
  split
  · exact hfile
  · exact hfile

/-- Between opening and shutting down no operation of a local block changes files, as long as no
files are changed to make readers. -/
theorem upholds_files_with (b : LocalBlock) (trouble : LocalReader → Site → Option Failure)
    {create : UInt64 → UInt64 → Site → Except Failure LocalReader × Site} (s : Store)
    {offset length : UInt64} (hcreate : ∀ w, (create offset length w).2.files = w.files) :
    ({ b.troubled trouble with create } : Source Site LocalReader).Upholds offset length
      fun _ _ w => w.files = s where
  note _ h := h
  create {_ w x w'} h hx := by
    have hfiles := hcreate w
    rw [show create offset length w = (x, w') from hx] at hfiles
    exact hfiles.trans h
  next {r w x r' w'} h hx := by
    have hfiles := files_next r w
    rw [show r.next w = (x, r', w') from hx] at hfiles
    exact hfiles.trans h
  release h := h
  close {r w x r' w'} h hx := by
    simp only [troubled] at hx
    split at hx
    all_goals
      obtain ⟨-, -, rfl⟩ : _ ∧ _ ∧ w = w' := by simpa [LocalReader.close] using hx
      exact h
  unread _ h := h

/-- Between opening and shutting down no operation of a local block changes files. -/
theorem upholds_files (b : LocalBlock) (trouble : LocalReader → Site → Option Failure)
    (s : Store) (offset length : UInt64) :
    (b.troubled trouble).Upholds offset length fun _ _ w => w.files = s :=
  b.upholds_files_with trouble s (b.files_create offset length)

/-- Readers of a file that stays as it is have nothing to do with each other. -/
theorem detached {S : Bytes} (hsize : b.packetSize ≠ 0) (hlength : b.length.toNat = S.length)
    (limit : Nat) : (conforming hsize hlength limit).Detached := by
  intro r w u e s target count howes
  have hcreate (v : Site) : (b.ideal.create target.toUInt64 count v).2.files = v.files := by
    simp only [ideal]
    split
    · rfl
    · exact b.files_create _ _ v
  have hupholds : b.ideal.Upholds target.toUInt64 count fun _ _ v => v.files = w.files :=
    b.upholds_files_with (fun _ _ => none) w.files hcreate
  have hfiles : (s.readAt b.ideal target count w).2.2.files = w.files := hupholds.readAt rfl
  show r.Owing (s.readAt b.ideal target count w).2.2.files u
  rw [hfiles]
  exact howes

/-- Shutting a block down closes the handle that pins it, if it is still there. -/
theorem files_shutDown (b : LocalBlock) (w : Site) :
    (b.shutDown w).2.files = w.files.close b.pin := by
  have hpin : (Files.Filed.files w).isOpen b.pin = w.files.isOpen b.pin := rfl
  unfold shutDown
  rw [hpin]
  cases hopen : w.files.isOpen b.pin with
  | true => rfl
  | false => exact (Store.close_of_not_isOpen hopen).symm

end LocalBlock

/-- A file was opened with a lock, and nothing else happened. -/
structure Files.Opened (s t : Store) (node : Nat) (lock : Lock) (ticket : Nat) : Prop where
  ticket_eq : ticket = s.nextTicket
  handles : t.handles = { ticket, node, lock } :: s.handles
  nextTicket : t.nextTicket = s.nextTicket + 1
  extends' : s.Extends t

/-- What comes of acquiring a block: nothing, or the file at its path is opened and shared. -/
theorem LocalBlock.acquire_cases {address : Address} {id size : UInt64} {path : Text}
    {w w' : Site} {x : Except Failure LocalBlock}
    (h : LocalBlock.acquire address id size path w = (x, w')) :
    (∃ f, x = .error f) ∧ w'.files = w.files ∨
      ∃ b node S, x = .ok b ∧ (w.files.openNode b.path .read).1 = .ok node ∧
        w.files.find b.path = .ok node ∧ w.files.node? node = some (.file S) ∧
        Files.Opened w.files w'.files node .shared b.pin := by
  cases x with
  | error f => exact .inl ⟨⟨f, rfl⟩, LocalBlock.files_of_acquire_error h⟩
  | ok b =>
    obtain ⟨hthere, hopen, hb, -⟩ := LocalBlock.acquire_eq_ok h
    obtain rfl : b.path = path := congrArg LocalBlock.path hb
    obtain ⟨S, hS⟩ := Option.isSome_iff_exists.1 hthere
    obtain ⟨node, hfind, hnode⟩ := Store.contents?_eq_some hS
    rcases w.files.openFile_cases b.path .read .shared with ⟨r, hcase⟩ | ⟨m, hm, hcase⟩
    · simp [hopen] at hcase
    · obtain rfl : m = node := Store.openNode_eq hfind hnode hm
      simp only [hopen, Prod.mk.injEq, Except.ok.injEq] at hcase
      obtain ⟨hpin, hfiles⟩ := hcase
      refine .inr ⟨b, m, S, rfl, hm, hfind, hnode, hpin, ?_, ?_, ?_⟩
      · rw [hfiles, hpin]
      · rw [hfiles]
      · rw [hfiles]
        exact (Store.extends_openNode ..).trans (Store.extends_of_nodes rfl)

end BlockAccess

import BlockAccess.Proofs.Acts
import BlockAccess.Proofs.Files.Emptied
import BlockAccess.Proofs.Source.Following
import BlockAccess.Proofs.Source.Pinning
import BlockAccess.Proofs.Stream.Interchange

/-!
# What a pinned block is protected from

Others open and close files while a block is pinned.  Nobody gets an exclusive lock on its file, but
the lock does not keep the contents: who opens the file for writing from the start empties it before
he is turned away.  `LocalBlock.fares_pinned` says what becomes of the block and of all its readers,
whether they were made before that or later.

Everything is followed from one event to the next.  Every call of others leaves the path to the file
and the pin where they are (`Files.Pinned.step`), so that whether a call would empty the file can be
told from the store at the beginning (`Files.Steady.empties_iff`).  Readers change nothing about the
files, and every event leaves them as `LocalReader.Follows` describes them
(`LocalBlock.Standing.step`); the state after any events follows by induction.
-/

namespace BlockAccess

open Files (Lock Mode Store)

namespace Files

/-! ## Calls on files -/

/-- What a client does with files: it opens them, with locks, and closes them. -/
inductive Call where
  | openFile (path : Text) (mode : Mode) (lock : Lock)
  | closeFile (ticket : Nat)
  deriving DecidableEq, Repr

/-- The surroundings after a call, whether or not it was successful. -/
def perform : Call → Site → Site
  | .openFile path mode lock, w => (openFile path mode lock w).2
  | .closeFile ticket, w => closeFile ticket w

/-- A call would empty the file at a path, whatever lock it asks for. -/
def Call.Empties (s : Store) (file : Text) : Call → Prop
  | openFile path mode _ => s.Empties path mode.access file
  | closeFile _ => False

instance (s : Store) (file : Text) (call : Call) : Decidable (call.Empties s file) :=
  match call with
  | .openFile path mode _ => inferInstanceAs (Decidable (s.Empties path mode.access file))
  | .closeFile _ => inferInstanceAs (Decidable False)

variable {w : Site} {file : Text} {n pin : Nat}

theorem files_closeFile (ticket : Nat) (w : Site) :
    (perform (.closeFile ticket) w).files = w.files.close ticket := rfl

theorem files_openFile (path : Text) (mode : Mode) (lock : Lock) (w : Site) :
    (perform (.openFile path mode lock) w).files = (w.files.openFile path mode lock).2 :=
  (openFile_site path mode lock w).2

/-! ## What no call changes -/

/-- A file is found as before, and what is said of paths is the same. -/
structure Steady (n : Nat) (s t : Store) : Prop where
  find_iff : ∀ path, t.find path = .ok n ↔ s.find path = .ok n
  unreadable : t.unreadable = s.unreadable
  shortReads : t.shortReads = s.shortReads
  offsetLimit : t.offsetLimit = s.offsetLimit

theorem Steady.refl (n : Nat) (s : Store) : Steady n s s :=
  ⟨fun _ => Iff.rfl, rfl, rfl, rfl⟩

theorem Steady.trans {s t u : Store} (h : Steady n s t) (h' : Steady n t u) : Steady n s u where
  find_iff path := (h'.find_iff path).trans (h.find_iff path)
  unreadable := h'.unreadable.trans h.unreadable
  shortReads := h'.shortReads.trans h.shortReads
  offsetLimit := h'.offsetLimit.trans h.offsetLimit

theorem steady_openFile {s : Store} {S : Bytes} (hfile : s.node? n = some (.file S)) (path : Text)
    (mode : Mode) (lock : Lock) : Steady n s (s.openFile path mode lock).2 := by
  obtain ⟨hnodes, hunreadable, hshort, hlimit⟩ := s.openFile_frame path mode lock
  refine ⟨?_, hunreadable, hshort, hlimit⟩
  intro path'
  rw [Store.find_of_nodes hnodes]
  exact Store.find_openNode_iff hfile path mode.access path'

/-- Whether a call would empty a file does not depend on the calls before it. -/
theorem Steady.empties_iff {s t : Store} (h : Steady n s t) (hfind : s.find file = .ok n)
    (call : Call) : call.Empties t file ↔ call.Empties s file := by
  cases call with
  | closeFile ticket => exact Iff.rfl
  | openFile path mode lock =>
    show Store.Empties t path mode.access file ↔ Store.Empties s path mode.access file
    rw [Store.Empties, Store.Empties, h.unreadable, hfind, (h.find_iff file).2 hfind,
      h.find_iff path]

/-- A path leads to a file on which a handle has a shared lock. -/
structure Pinned (s : Store) (file : Text) (pin n : Nat) : Prop where
  find_eq : s.find file = .ok n
  isFile : ∃ S, s.node? n = some (.file S)
  shared : { ticket := pin, node := n, lock := .shared } ∈ s.handles

/-- Only who closes the handle gives up the pin. -/
theorem Pinned.step (h : Pinned w.files file pin n) {call : Call}
    (hcall : call ≠ .closeFile pin) :
    Pinned (perform call w).files file pin n ∧ Steady n w.files (perform call w).files := by
  obtain ⟨S, hS⟩ := h.isFile
  cases call with
  | closeFile ticket =>
    have hne : pin ≠ ticket := fun heq => hcall (heq ▸ rfl)
    rw [files_closeFile]
    have hfind := w.files.find_close ticket
    refine ⟨⟨(hfind file).trans h.find_eq, h.isFile, ?_⟩, fun path => ?_, rfl, rfl, rfl⟩
    · exact List.mem_filter.2 ⟨h.shared, by simpa using hne⟩
    · rw [hfind path]
  | openFile path mode lock =>
    have hsteady := steady_openFile hS path mode lock
    have hextends := w.files.extends_openNode path mode.access
    rw [files_openFile]
    refine ⟨⟨(hsteady.find_iff file).2 h.find_eq, ?_, ?_⟩, hsteady⟩
    · rw [Store.node?, (w.files.openFile_frame path mode lock).1]
      exact hextends.file hS
    · rcases w.files.openFile_cases path mode lock with ⟨r, hcase⟩ | ⟨node, -, hcase⟩
      · rw [hcase, w.files.openNode_snd path mode.access]
        exact h.shared
      · rw [hcase]
        exact .tail _ h.shared

/-- Nobody gets an exclusive lock on the file that a path led to in a store, by whatever path and in
whatever mode he asks.  If the file can be opened in that mode, it is the lock that is refused. -/
def LocksOut (s : Store) (file : Text) (v : Site) : Prop :=
  ∀ path mode, s.find path = s.find file →
    (∃ r, (openFile path mode .exclusive v).1 = .error r) ∧
      (mode.isConvertible = true → mode.access ≠ .create → Text.untilNul path ∉ s.unreadable →
        (openFile path mode .exclusive v).1 = .error .locked)

theorem Pinned.locksOut {s : Store} (h : Pinned w.files file pin n) (hsteady : Steady n s w.files)
    (hfind : s.find file = .ok n) : LocksOut s file w := by
  intro path mode hpath
  have hleads : w.files.find path = .ok n := (hsteady.find_iff path).2 (hpath.trans hfind)
  obtain ⟨S, hS⟩ := h.isFile
  have hexcluded : w.files.isExcluded n .exclusive = true :=
    List.any_eq_true.2 ⟨_, h.shared, by simp [Lock.excludes]⟩
  rw [(openFile_site path mode .exclusive w).1, ← hsteady.unreadable]
  constructor
  · rw [Store.openFile_fst]
    cases hopen : (w.files.openNode path mode.access).1 with
    | error r => exact ⟨r, rfl⟩
    | ok m =>
      obtain rfl := Store.openNode_eq hleads hS hopen
      dsimp only
      rw [hexcluded]
      split
      · exact ⟨_, rfl⟩
      · exact ⟨_, rfl⟩
  · intro hmode hcreate hreadable
    have hopen := (Store.openNode_eq_ok_iff hS).2 ⟨hreadable, hcreate, hleads⟩
    exact (w.files.openFile_eq_locked_iff path mode .exclusive).2 ⟨n, hopen, hmode, hexcluded⟩

/-! ## What calls change -/

/-- What a call leaves of a file. -/
theorem contents?_perform {S : Bytes} (hS : w.files.contents? file = some S) (call : Call) :
    (call.Empties w.files file → (perform call w).files.contents? file = some []) ∧
      (¬call.Empties w.files file → (perform call w).files.contents? file = some S) := by
  cases call with
  | closeFile ticket =>
    rw [files_closeFile, w.files.contents?_close ticket file]
    exact ⟨False.elim, fun _ => hS⟩
  | openFile path mode lock =>
    rw [files_openFile]
    exact Store.contents?_openFile hS path mode lock

end Files

/-! ## Blocks -/

namespace LocalBlock

open Files (Call)

/-- What happens while a block is pinned: others open and close files, and readers of the block are
made, asked for packets and closed. -/
inductive Event where
  | other (call : Call)
  | create (offset length : UInt64)
  | next (reader : Nat)
  | close (reader : Nat)
  deriving DecidableEq, Repr

/-- What an event does to the surroundings and to the readers, which are numbered in the order in
which they were made.  Gives what a reader returned. -/
def undergo (b : LocalBlock) : Event → Site × List LocalReader →
    Option (Except Failure (Option Packet)) × Site × List LocalReader
  | .other call, (w, readers) => (none, Files.perform call w, readers)
  | .create offset length, (w, readers) =>
    match b.create offset length w with
    | (.ok r, w) => (none, w, readers ++ [r])
    | (.error _, w) => (none, w, readers)
  | .next i, (w, readers) =>
    match readers[i]? with
    | none => (none, w, readers)
    | some r =>
      match r.next w with
      | (x, r, w) => (some x, w, readers.set i r)
  | .close i, (w, readers) =>
    match readers[i]? with
    | none => (none, w, readers)
    | some r =>
      match r.close w with
      | (_, r, w) => (none, w, readers.set i r)

/-- An event would empty the file at a path. -/
def Event.empties (s : Store) (file : Text) : Event → Bool
  | other call => decide (call.Empties s file)
  | _ => false

/-- Some of the events would empty the file at a path. -/
def emptied (s : Store) (file : Text) (past : List Event) : Bool := past.any (·.empties s file)

/-! ### From one event to the next -/

variable {b : LocalBlock} {S : Bytes} {n : Nat} {s : Store} {gone : Bool} {w w' : Site}
  {readers : List LocalReader} {p : Site × List LocalReader}

/-- How things stand with a block that was pinned in a store, and whether its file is emptied. -/
structure Standing (b : LocalBlock) (S : Bytes) (n : Nat) (s : Store) (gone : Bool)
    (p : Site × List LocalReader) : Prop where
  pinned : Files.Pinned p.1.files b.path b.pin n
  steady : Files.Steady n s p.1.files
  contents : p.1.files.node? n = some (.file (if gone then [] else S))
  follows : ∀ r ∈ p.2, r.Follows S n (s.shortReads.contains (Text.untilNul b.path)) p.1.files

/-- What is opened for reading then. -/
theorem Standing.readStream_eq (h : b.Standing S n s gone p)
    (hreadable : Text.untilNul b.path ∉ s.unreadable) : p.1.files.readStream b.path =
      .ok { node := n, short := s.shortReads.contains (Text.untilNul b.path) } := by
  have hstill : Text.untilNul b.path ∉ p.1.files.unreadable := h.steady.unreadable ▸ hreadable
  rw [Store.readStream_of_find h.pinned.find_eq h.contents hstill, h.steady.shortReads]

/-- Things stand as before as long as the files stay as they are. -/
theorem Standing.of_files (h : b.Standing S n s gone p) (hfiles : w'.files = p.1.files)
    (hfollows : ∀ r ∈ readers,
      r.Follows S n (s.shortReads.contains (Text.untilNul b.path)) p.1.files) :
    b.Standing S n s gone (w', readers) where
  pinned := hfiles ▸ h.pinned
  steady := hfiles ▸ h.steady
  contents := hfiles ▸ h.contents
  follows := hfiles ▸ hfollows

/-- Others may empty the file. -/
theorem Standing.other (h : b.Standing S n s gone p) (hfind : s.find b.path = .ok n) {call : Call}
    (hcall : call ≠ .closeFile b.pin) :
    b.Standing S n s (gone || decide (call.Empties s b.path)) (Files.perform call p.1, p.2) := by
  obtain ⟨hpinned, hsteady⟩ := h.pinned.step hcall
  have hthere := Store.contents?_eq h.pinned.find_eq h.contents
  obtain ⟨hempties, hspares⟩ := Files.contents?_perform hthere call
  rw [h.steady.empties_iff hfind call] at hempties hspares
  have hcontents : (Files.perform call p.1).files.contents? b.path =
      some (if gone || decide (call.Empties s b.path) then [] else S) := by
    by_cases hcase : call.Empties s b.path
    · rw [hempties hcase, decide_eq_true hcase, Bool.or_true, if_pos rfl]
    · rw [hspares hcase, decide_eq_false hcase, Bool.or_false]
  have hnode : (Files.perform call p.1).files.node? n =
      some (.file (if gone || decide (call.Empties s b.path) then [] else S)) := by
    obtain ⟨m, hm, hfile⟩ := Store.contents?_eq_some hcontents
    obtain rfl : m = n := Except.ok.inj (hm.symm.trans hpinned.find_eq)
    exact hfile
  refine ⟨hpinned, h.steady.trans hsteady, hnode, fun r hr => (h.follows r hr).of_node? ?_⟩
  -- what is in the file now was in it before, unless that was the call that emptied it
  intro hback
  rw [hnode] at hback
  rw [h.contents]
  cases gone with
  | true => exact hback
  | false => rfl

/-- A reader that still follows can take the place of another. -/
theorem Standing.follows_set (h : b.Standing S n s gone (w, readers)) (i : Nat) {r : LocalReader}
    (hr : r.Follows S n (s.shortReads.contains (Text.untilNul b.path)) w.files) :
    ∀ q ∈ readers.set i r,
      q.Follows S n (s.shortReads.contains (Text.untilNul b.path)) w.files := by
  intro q hq
  rcases List.mem_or_eq_of_mem_set hq with hold | rfl
  · exact h.follows q hold
  · exact hr

/-- A reader that is made follows. -/
theorem Standing.create (h : b.Standing S n s gone p)
    (hreadable : Text.untilNul b.path ∉ s.unreadable) (hsize : b.packetSize ≠ 0)
    (hlength : b.length.toNat ≤ S.length) (offset length : UInt64) :
    b.Standing S n s gone (b.undergo (.create offset length) p).2 := by
  obtain ⟨w, readers⟩ := p
  have hfiles := b.files_create offset length w
  have hmade := create_of_readStream (h.readStream_eq hreadable) h.contents offset length
  unfold undergo
  dsimp only at hmade ⊢
  rcases hcreate : b.create offset length w with ⟨f | r, w'⟩
  · rw [hcreate] at hfiles
    exact h.of_files hfiles h.follows
  · rw [hcreate] at hfiles hmade
    obtain rfl : r = b.reader
        { node := n, short := s.shortReads.contains (Text.untilNul b.path) } offset length := by
      split at hmade
      · simp at hmade
      · exact Except.ok.inj (congrArg Prod.fst hmade)
    refine h.of_files hfiles fun q hq => ?_
    rcases List.mem_append.1 hq with hold | hnew
    · exact h.follows q hold
    · rw [List.mem_singleton.1 hnew]
      exact follows_reader hsize hlength _ offset length

/-- A reader that is asked for a packet goes on following. -/
theorem Standing.next (h : b.Standing S n s gone p) (i : Nat) :
    b.Standing S n s gone (b.undergo (.next i) p).2 := by
  obtain ⟨w, readers⟩ := p
  unfold undergo
  dsimp only
  cases hr : readers[i]? with
  | none => exact h
  | some r =>
    have hfollows := h.follows r (List.mem_of_getElem? hr)
    exact h.of_files (files_next r w) (h.follows_set i (hfollows.next h.contents).2)

/-- A reader that is closed has no file any more. -/
theorem Standing.close (h : b.Standing S n s gone p) (i : Nat) :
    b.Standing S n s gone (b.undergo (.close i) p).2 := by
  obtain ⟨w, readers⟩ := p
  unfold undergo
  dsimp only
  cases hr : readers[i]? with
  | none => exact h
  | some r =>
    have hfollows := h.follows r (List.mem_of_getElem? hr)
    exact h.of_files rfl (h.follows_set i hfollows.close)

/-- Whoever uses a reader does not empty the file. -/
theorem Standing.still (h : b.Standing S n s gone p) : b.Standing S n s (gone || false) p := by
  rwa [Bool.or_false]

/-- **One event more**, whichever it is. -/
theorem Standing.step (h : b.Standing S n s gone p) (hfind : s.find b.path = .ok n)
    (hreadable : Text.untilNul b.path ∉ s.unreadable) (hsize : b.packetSize ≠ 0)
    (hlength : b.length.toNat ≤ S.length) {e : Event} (he : e ≠ .other (.closeFile b.pin)) :
    b.Standing S n s (gone || e.empties s b.path) (act b.undergo e p).after := by
  cases e with
  | other call => exact h.other hfind fun hcall => he (congrArg Event.other hcall)
  | create offset length => exact (h.create hreadable hsize hlength offset length).still
  | next i => exact (h.next i).still
  | close i => exact (h.close i).still

/-- Any number of events. -/
theorem Standing.run (h : b.Standing S n s gone p) (hfind : s.find b.path = .ok n)
    (hreadable : Text.untilNul b.path ∉ s.unreadable) (hsize : b.packetSize ≠ 0)
    (hlength : b.length.toNat ≤ S.length) {past : List Event}
    (hpast : ∀ e ∈ past, e ≠ .other (.closeFile b.pin)) :
    b.Standing S n s (gone || emptied s b.path past) (endOf b.undergo past p) := by
  induction past generalizing gone p with
  | nil =>
    rw [emptied, List.any_nil, Bool.or_false]
    exact h
  | cons e past ih =>
    rw [List.forall_mem_cons] at hpast
    rw [emptied, List.any_cons, ← Bool.or_assoc]
    exact ih (h.step hfind hreadable hsize hlength hpast.1) hpast.2

/-! ### What becomes of a block -/

/-- How a block that was pinned in `w` fares through some events. -/
structure Fares (b : LocalBlock) (S : Bytes) (w : Site) (past : List Event)
    (p : Site × List LocalReader) : Prop where
  /-- Nobody gets an exclusive lock on its file. -/
  locksOut : Files.LocksOut w.files b.path p.1
  /-- Its file is empty if somebody opened it for writing from the start, with or without success,
  and otherwise it has what it had. -/
  contents : p.1.files.contents? b.path =
    some (if emptied w.files b.path past then [] else S)
  /-- Readers are made as before. -/
  made : ∀ offset length, (b.create offset length p.1).1 = (b.create offset length w).1
  /-- What a reader gives next, whenever it was made. -/
  packets : ∀ r ∈ p.2, (r.next p.1).1 =
    r.given S (w.files.shortReads.contains (Text.untilNul b.path)) (emptied w.files b.path past)
  /-- So a reader in front of the end of its range gives what it should exactly if nobody emptied
  the file or the packet was fetched before. -/
  unaltered_iff : Text.untilNul b.path ∉ w.files.shortReads → ∀ r ∈ p.2, ∀ file,
    r.stream = some file → r.position < r.stop →
      ((r.next p.1).1 = .ok (some (.ofBytes (range S r.position r.nextSize))) ↔
        (emptied w.files b.path past = true → r.nextSize.toNat ≤ file.ahead.length))

/-- Acquiring a block pins its file. -/
theorem standing_of_acquire {address : Address} {id size : UInt64} {path : Text} {w₀ : Site}
    (h : acquire address id size path w₀ = (.ok b, w)) :
    b.packetSize ≠ 0 ∧ Text.untilNul b.path ∉ w.files.unreadable ∧
      ∃ n S, b.length.toNat ≤ S.length ∧ b.Standing S n w.files false (w, []) := by
  obtain ⟨-, hopen, hb, hsize⟩ := acquire_eq_ok h
  obtain rfl : b.path = path := congrArg LocalBlock.path hb
  have hpackets : b.packetSize = size := congrArg LocalBlock.packetSize hb
  have hbytes : b.length = .ofNat ((w.files.contents? b.path).getD []).length :=
    congrArg LocalBlock.length hb
  obtain ⟨hnodes, hunreadable, -, -⟩ := Store.openFile_read hopen
  rcases acquire_cases h with ⟨⟨f, hf⟩, -⟩ | ⟨b', n, S, hb', hnode, hfind, hfile, hopened⟩
  · simp at hf
  obtain rfl := Except.ok.inj hb'
  have hleads : w.files.find b.path = .ok n := hopened.extends'.find hfind
  have hthere : w.files.node? n = some (.file S) := by
    rw [Store.node?, hnodes]
    exact hfile
  have hshared : { ticket := b.pin, node := n, lock := .shared } ∈ w.files.handles := by
    rw [hopened.handles]
    exact .head _
  refine ⟨hpackets ▸ hsize, ?_, n, S, ?_, ⟨hleads, ⟨S, hthere⟩, hshared⟩, .refl n w.files, hthere,
    fun r hr => absurd hr List.not_mem_nil⟩
  · rw [hunreadable]
    exact Store.notMem_unreadable hnode
  · rw [hbytes, Store.contents?_eq hleads hthere, UInt64.toNat_ofNat']
    exact Nat.mod_le ..

/-- **A pin keeps others from the lock and not from the file.**  A lock that is refused, on any
file in any store, protects all files but the one that is written from the start.  So while a block
is pinned nobody gets an exclusive lock on its file; but who tries to by opening it for writing from
the start takes the bytes away from its readers, from those that were made before as well as from
those that are made later.  They go on as long as they hold the bytes that are asked for, and fail
then. -/
theorem fares_pinned {address : Address} {id size : UInt64} {path : Text} {w₀ : Site}
    (h : acquire address id size path w₀ = (.ok b, w)) :
    (∀ (s t : Store) (path : Text) (mode : Mode) (lock : Lock),
      s.openFile path mode lock = (.error .locked, t) → s.TurnedAway path mode.access t) ∧
      ∃ S, w.files.contents? b.path = some S ∧
        ∀ past, (∀ e ∈ past, e ≠ .other (.closeFile b.pin)) →
          b.Fares S w past (endOf b.undergo past (w, [])) := by
  obtain ⟨hsize, hreadable, n, S, hlength, hstart⟩ := standing_of_acquire h
  have hfind := hstart.pinned.find_eq
  refine ⟨fun s t path mode lock hlocked => Store.turnedAway hlocked, S,
    Store.contents?_eq hfind hstart.contents, fun past hpast => ?_⟩
  have hend := hstart.run hfind hreadable hsize hlength hpast
  rw [Bool.false_or] at hend
  have hpackets (r : LocalReader) (hr : r ∈ (endOf b.undergo past (w, [])).2) :=
    ((hend.follows r hr).next hend.contents).1
  constructor
  case locksOut => exact hend.pinned.locksOut hend.steady hfind
  case contents => exact Store.contents?_eq hend.pinned.find_eq hend.contents
  case made =>
    intro offset length
    rw [create_of_readStream (hend.readStream_eq hreadable) hend.contents,
      create_of_readStream (hstart.readStream_eq hreadable) hstart.contents,
      hend.steady.offsetLimit]
    split <;> rfl
  case packets => exact hpackets
  case unaltered_iff =>
    intro hfull r hr file hstream hlt
    have hshort : w.files.shortReads.contains (Text.untilNul b.path) = false := by
      simpa using hfull
    rw [hpackets r hr, hshort]
    exact LocalReader.given_eq_iff hstream hlt

open BlockAccess.Stream (shelf shelved pinned acquire_shelved)

/-- Two readers are made for the shelved file, and one of them is asked for a packet.  Then somebody
asks for an exclusive lock on the file to read it, and to write it. -/
def intrusion : List Event :=
  [.create 0 5, .create 0 5, .next 0, .other (.openFile [98] .read .exclusive),
    .other (.openFile [98] .write .exclusive)]

/-- Both readers are asked for a packet, and a third one that is made now. -/
def aftermath : List Event := [.next 0, .next 1, .create 0 5, .next 2]

/-- The second attempt is turned away and empties the file.  The first reader holds the next packet,
and the others fail. -/
theorem fares_pinned_intrusion :
    acquire {} 7 2 [98] shelf = (.ok shelved, pinned shelf) ∧
      (pinned shelf).files.TurnedAway [98] .write
        ((pinned shelf).files.openFile [98] .write .exclusive).2 ∧
      emptied (pinned shelf).files shelved.path intrusion = true ∧
      shelved.Fares [1, 2, 3, 4, 5] (pinned shelf) intrusion
        (endOf shelved.undergo intrusion (pinned shelf, [])) ∧
      (acts shelved.undergo (intrusion ++ aftermath) (pinned shelf, [])).map Act.result =
        [none, none, some (.ok (some (.ofBytes [1, 2]))), none, none,
          some (.ok (some (.ofBytes [3, 4]))), some (.error (.transport (.shortRead 2 0))), none,
          some (.error (.transport (.shortRead 2 0)))] := by
  obtain ⟨hturned, S, hS, hfares⟩ := fares_pinned acquire_shelved
  obtain rfl : [1, 2, 3, 4, 5] = S := Option.some.inj hS
  refine ⟨acquire_shelved, ?_, by decide, hfares intrusion (by decide), rfl⟩
  exact hturned (pinned shelf).files _ [98] .write .exclusive (Prod.ext rfl rfl)

/-- A lock that is refused does not protect the bytes of the file that it is refused for, nor those
that a reader returns who was there before. -/
theorem emptied_while_pinned :
    acquire {} 7 2 [98] shelf = (.ok shelved, pinned shelf) ∧
      (pinned shelf).files.contents? [98] = some [1, 2, 3, 4, 5] ∧
      ((pinned shelf).files.openFile [98] .write .exclusive).1 = .error .locked ∧
      ((pinned shelf).files.openFile [98] .write .exclusive).2.contents? [98] = some [] ∧
      (acts shelved.undergo [.create 0 5, .next 0] (pinned shelf, [])).map Act.result =
        [none, some (.ok (some (.ofBytes [1, 2])))] ∧
      (acts shelved.undergo [.create 0 5, .other (.openFile [98] .write .exclusive), .next 0]
          (pinned shelf, [])).map Act.result =
        [none, none, some (.error (.transport (.shortRead 2 0)))] :=
  ⟨rfl, by decide, rfl, by decide, rfl, rfl⟩

end LocalBlock

end BlockAccess

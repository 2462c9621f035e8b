import BlockAccess.Command.Output
import BlockAccess.Proofs.Source.Local

/-!
# Output that reaches its file

Output to a file is kept together and is in the file once the output is closed.  In between other
files are opened and closed.  `Store.Writing` says what is needed for that to work: the handle of
the output leads to the node of its path, and the file there is still empty.  Opening a path for
writing establishes it (`Store.Receives.openFile`), opening and closing other handles keeps it, and
closing the output cashes it in (`Store.Writing.contents?_finish`).

A file on a device without room is another matter: see `Output.write`.
-/

namespace BlockAccess.Files.Store

open Command (Output)

variable {s t : Store} {path : Text} {n ticket : Nat}

/-- A path can be opened for writing and then leads to a regular file. -/
structure Receives (s : Store) (path : Text) (n : Nat) : Prop where
  opens : (s.openNode path .write).1 = .ok n
  find_eq : (s.openNode path .write).2.find path = .ok n
  isFile : ∃ b, (s.openNode path .write).2.node? n = some (.file b)

/-- A handle is open on the empty file at a path. -/
structure Writing (s : Store) (ticket : Nat) (path : Text) (n : Nat) : Prop where
  nodeOf_eq : s.nodeOf? ticket = some n
  find_eq : s.find path = .ok n
  empty : s.node? n = some (.file [])
  ticket_lt : ticket < s.nextTicket

/-! ## Opening the output -/

/-- A handle without a lock is excluded by none. -/
theorem isExcluded_none (s : Store) (n : Nat) : s.isExcluded n .none = false := by
  unfold isExcluded
  rw [List.any_eq_false]
  intro h _
  cases h.lock <;> simp [Lock.excludes]

/-- The store with a path opened for writing, where it leads to a node. -/
def withOutput (s : Store) (path : Text) (n : Nat) : Store :=
  { (s.openNode path .write).2 with
    handles := { ticket := s.nextTicket, node := n, lock := .none } :: s.handles
    nextTicket := s.nextTicket + 1 }

theorem find_withOutput (s : Store) (path : Text) (n : Nat) (path' : Text) :
    (s.withOutput path n).find path' = (s.openNode path .write).2.find path' :=
  find_of_nodes (s := (s.openNode path .write).2) (t := s.withOutput path n) rfl path'

theorem offsetLimit_withOutput (s : Store) (path : Text) (n : Nat) :
    (s.withOutput path n).offsetLimit = s.offsetLimit := by
  rw [withOutput, s.openNode_snd path .write]

/-- A new handle without a lock excludes no one. -/
theorem isExcluded_withOutput (s : Store) (path : Text) (n m : Nat) (lock : Lock) :
    (s.withOutput path n).isExcluded m lock = s.isExcluded m lock := by
  unfold isExcluded withOutput
  rw [List.any_cons]
  simp [Lock.excludes]

theorem Receives.writing (h : s.Receives path n) :
    (s.withOutput path n).Writing s.nextTicket path n := by
  obtain ⟨b, hfile⟩ := h.isFile
  obtain rfl := eq_nil_of_openNode_write h.opens hfile
  refine ⟨?_, (find_withOutput ..).trans h.find_eq, hfile, Nat.lt_succ_self _⟩
  simp [withOutput, nodeOf?]

/-- Opening the output makes or empties its file and adds a handle. -/
theorem Receives.openFile (h : s.Receives path n) : Output.openFile s path =
    (.ok { target := .file s.nextTicket }, s.withOutput path n) := by
  obtain ⟨ticket, t, hopen⟩ := (s.openFile_isOk_iff path .write .none).2
    ⟨n, h.opens, rfl, s.isExcluded_none n⟩
  have hopened : s.openFile path .write .none = (.ok s.nextTicket, s.withOutput path n) := by
    rcases s.openFile_cases path .write .none with ⟨r, hcase⟩ | ⟨m, hm, hcase⟩
    · rw [hopen] at hcase
      simp at hcase
    · obtain rfl : m = n := Except.ok.inj (hm.symm.trans h.opens)
      exact hcase
  unfold Output.openFile
  rw [hopened]
  dsimp only
  rw [h.writing.nodeOf_eq, Option.bind_some, h.writing.empty]

/-- Another file keeps what it has. -/
theorem Receives.keeps (h : s.Receives path n) {path' : Text} {S : Bytes} (hk : s.Keeps path' S)
    (hne : s.find path' ≠ .ok n) : (s.withOutput path n).Keeps path' S := by
  have hkept := s.openNode_snd path .write
  obtain ⟨m, hfind, hnode⟩ := contents?_eq_some hk.contents
  have hother : (s.openNode path .write).1 ≠ .ok m := by
    rw [h.opens]
    rintro heq
    exact hne (Except.ok.inj heq ▸ hfind)
  refine ⟨?_, ?_, ?_, hk.length_lt⟩
  · have hfind' : (s.withOutput path n).find path' = .ok m :=
      (find_withOutput ..).trans ((s.extends_openNode path .write).find hfind)
    exact contents?_eq hfind' (node?_openNode hnode hother)
  · rw [withOutput, hkept]
    exact hk.readable
  · rw [withOutput, hkept]
    exact hk.full

/-- What is in another file was there before. -/
theorem Receives.contents?_eq (h : s.Receives path n) {path' : Text} {S : Bytes} {m : Nat}
    (hfind : (s.withOutput path n).find path' = .ok m) (hne : m ≠ n)
    (hcontents : (s.withOutput path n).contents? path' = some S) : s.contents? path' = some S := by
  obtain ⟨k, hk, hnode⟩ := contents?_eq_some hcontents
  obtain rfl : k = m := Except.ok.inj (hk.symm.trans hfind)
  have hother : (s.openNode path .write).1 ≠ .ok k := by
    rw [h.opens]
    rintro heq
    exact hne (Except.ok.inj heq).symm
  rw [find_withOutput] at hfind
  exact Store.contents?_eq (find_of_openNode hother hfind) (node?_of_openNode hother hnode)

/-! ## Other handles -/

/-- Closing another handle is none of the output's business. -/
theorem Writing.close (h : s.Writing ticket path n) {other : Nat} (hne : other ≠ ticket) :
    (s.close other).Writing ticket path n where
  nodeOf_eq := by
    have hfind : (s.handles.filter fun g => g.ticket != other).find? (fun g => g.ticket == ticket) =
        s.handles.find? fun g => g.ticket == ticket := by
      rw [List.find?_filter]
      congr 1
      funext g
      by_cases hg : g.ticket = ticket
      · simp [hg, Ne.symm hne]
      · simp [hg]
    have hnode := h.nodeOf_eq
    unfold nodeOf? at hnode ⊢
    rw [Store.close, hfind, hnode]
  find_eq := (s.find_close other path).trans h.find_eq
  empty := h.empty
  ticket_lt := h.ticket_lt

/-- Nor is opening another file for reading. -/
theorem Writing.openFile_read (h : s.Writing ticket path n) {path' : Text} {lock : Lock}
    {other : Nat} (hopen : s.openFile path' .read lock = (.ok other, t)) :
    t.Writing ticket path n ∧ other ≠ ticket := by
  rcases s.openFile_cases path' .read lock with ⟨r, hcase⟩ | ⟨m, -, hcase⟩
  · rw [hopen] at hcase
    simp at hcase
  rw [hopen, show Mode.read.access = .read from rfl, s.openNode_read path'] at hcase
  simp only [Prod.mk.injEq, Except.ok.injEq] at hcase
  obtain ⟨rfl, ht⟩ := hcase
  have hne : s.nextTicket ≠ ticket := Nat.ne_of_gt h.ticket_lt
  have hnodes : t.nodes = s.nodes := by rw [ht]
  refine ⟨⟨?_, (find_of_nodes hnodes path).trans h.find_eq, ?_, ?_⟩, hne⟩
  · have hnode := h.nodeOf_eq
    unfold nodeOf? at hnode ⊢
    rw [ht, List.find?_cons_of_neg (by simpa using hne), hnode]
  · rw [node?, hnodes, ← node?, h.empty]
  · rw [ht]
    exact Nat.lt_succ_of_lt h.ticket_lt

/-! ## Closing the output -/

/-- **What was written is in the file** once the output is closed. -/
theorem Writing.contents?_finish (h : s.Writing ticket path n) {o : Output}
    (ho : o.target = .file ticket) : (o.finish s).contents? path = some o.written := by
  have happend : s.append ticket o.written = s.refill n o.written := by
    unfold append
    rw [h.nodeOf_eq]
    dsimp only
    rw [h.empty]
    rfl
  have hfind : (s.refill n o.written).find path = .ok n := by
    rw [find_refill, h.find_eq]
  unfold Output.finish
  rw [ho]
  dsimp only
  rw [happend, contents?_close]
  exact contents?_eq hfind (node?_refill_self h.empty)

end BlockAccess.Files.Store

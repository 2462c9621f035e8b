import BlockAccess.Proofs.Files.Paths

/-!
# Opening files leaves paths as they are

Opening a file may empty it or make a new one, but it takes no name away and gives no name to
another node.  So a path that leads to a file goes on doing so (`extends_openNode`), and who opens it
later, for whatever purpose, opens that file or is refused (`openNode_eq`).

The files that are not opened keep their contents as well (`node?_openNode`).

With a lock, opening a file can fail once more, and then no handle is left behind
(`openFile_cases`).
-/

namespace BlockAccess.Files.Store

variable {s t : Store}

/-! ## Opening -/

/-- Opening a file for writing empties it, makes it, or does nothing. -/
theorem openForWriting_cases (s : Store) (path : Text) (access : Access) :
    (s.openForWriting path access).2 = s ∨
      (∃ n, (s.openForWriting path access).1 = .ok n ∧
        (s.openForWriting path access).2 = s.refill n []) ∨
      ∃ d name, (s.openForWriting path access).1 = .ok s.nodes.size ∧
        s.enter d name = .error .notFound ∧
        (s.openForWriting path access).2 = s.create d name (.file []) := by
  unfold openForWriting
  split
  · exact .inl rfl
  · next d name hspot => exact .inr (.inr ⟨d, name, rfl, enter_of_spot_free hspot, rfl⟩)
  split
  · exact .inl rfl
  split
  · exact .inl rfl
  next n _ _ _ =>
  dsimp only
  split
  · exact .inl rfl
  · exact .inr (.inl ⟨n, rfl, rfl⟩)

theorem openNode_cases (s : Store) (path : Text) (access : Access) :
    (s.openNode path access).2 = s ∨
      (∃ n, (s.openNode path access).1 = .ok n ∧ (s.openNode path access).2 = s.refill n []) ∨
      ∃ d name, (s.openNode path access).1 = .ok s.nodes.size ∧
        s.enter d name = .error .notFound ∧
        (s.openNode path access).2 = s.create d name (.file []) := by
  unfold openNode
  split
  · exact .inl rfl
  cases access with
  | read | update => exact .inl rfl
  | write | append | create => exact s.openForWriting_cases path _

theorem extends_openNode (s : Store) (path : Text) (access : Access) :
    s.Extends (s.openNode path access).2 := by
  rcases s.openNode_cases path access with hs | ⟨n, -, hs⟩ | ⟨d, name, -, hfree, hs⟩
  · rw [hs]
    exact extends_of_nodes rfl
  · rw [hs]
    exact extends_refill s n []
  · rw [hs]
    exact extends_create hfree _

/-- Opening a file for reading changes nothing. -/
theorem openNode_read (s : Store) (path : Text) : (s.openNode path .read).2 = s := by
  unfold openNode
  split <;> rfl

theorem openNode_read_fst {path : Text} (h : Text.untilNul path ∉ s.unreadable) :
    (s.openNode path .read).1 = s.find path := by
  unfold openNode
  rw [if_neg (by simpa using h)]

theorem notMem_unreadable {path : Text} {access : Access} {n : Nat}
    (h : (s.openNode path access).1 = .ok n) : Text.untilNul path ∉ s.unreadable := by
  intro hdenied
  unfold openNode at h
  rw [if_pos (by simpa using hdenied)] at h
  simp at h

/-- Finding the node that is opened changes nothing but nodes. -/
theorem openNode_snd (s : Store) (path : Text) (access : Access) :
    (s.openNode path access).2 = { s with nodes := (s.openNode path access).2.nodes } := by
  rcases s.openNode_cases path access with hs | ⟨n, -, hs⟩ | ⟨d, name, -, -, hs⟩
  · rw [hs]
  · rw [hs, refill]
    split <;> rfl
  · rw [hs]
    rfl

theorem not_isDirectory {n : Nat} {b : Bytes} (hfile : s.node? n = some (.file b)) :
    ¬(s.node? n).any Node.isDirectory = true := by
  rw [hfile]
  exact Bool.false_ne_true

theorem openForWriting_eq_ok_iff {path : Text} {access : Access} {n : Nat} {b : Bytes}
    (hfile : s.node? n = some (.file b)) :
    (s.openForWriting path access).1 = .ok n ↔ access ≠ .create ∧ s.find path = .ok n := by
  rw [← spot_eq_taken_iff hfile]
  unfold openForWriting
  split
  · next h => simp [h]
  · next d name h =>
    have hlt : n < s.nodes.size := by
      rw [node?] at hfile
      exact (Array.getElem?_eq_some_iff.1 hfile).1
    simp [h, Nat.ne_of_gt hlt]
  · next k h =>
    by_cases hcreate : access = .create
    · simp [hcreate]
    rw [if_neg hcreate]
    by_cases hk : k = n
    · subst hk
      rw [if_neg (not_isDirectory hfile)]
      simp [h, hcreate]
    · split <;> simp [h, hk]

/-- When opening a path leads to a file that is there. -/
theorem openNode_eq_ok_iff {path : Text} {access : Access} {n : Nat} {b : Bytes}
    (hfile : s.node? n = some (.file b)) :
    (s.openNode path access).1 = .ok n ↔
      Text.untilNul path ∉ s.unreadable ∧ access ≠ .create ∧ s.find path = .ok n := by
  unfold openNode
  by_cases hdenied : Text.untilNul path ∈ s.unreadable
  · rw [if_pos (by simpa using hdenied)]
    simp [hdenied]
  rw [if_neg (by simpa using hdenied)]
  cases access with
  | read => simp [hdenied]
  | update =>
    dsimp only
    unfold openForUpdate
    cases s.find path with
    | error r => simp
    | ok m =>
      dsimp only
      by_cases hm : m = n
      · subst hm
        rw [if_neg (not_isDirectory hfile)]
        simp [hdenied]
      · split <;> simp [hm]
  | write | append | create =>
    exact (openForWriting_eq_ok_iff hfile).trans (and_iff_right hdenied).symm

/-- A path that leads to a file is opened as that file, if at all. -/
theorem openNode_eq {path : Text} {access : Access} {n m : Nat} {b : Bytes}
    (hfind : s.find path = .ok n) (hfile : s.node? n = some (.file b))
    (hm : (s.openNode path access).1 = .ok m) : m = n := by
  have hreadable := notMem_unreadable hm
  by_cases hcreate : access = .create
  · -- a file that is there cannot be made
    have hspot := (spot_eq_taken_iff hfile).2 hfind
    unfold openNode at hm
    rw [if_neg (by simpa using hreadable), hcreate] at hm
    dsimp only at hm
    unfold openForWriting at hm
    rw [hspot] at hm
    simp at hm
  · have hopen := (openNode_eq_ok_iff hfile).2 ⟨hreadable, hcreate, hfind⟩
    exact Except.ok.inj (hm.symm.trans hopen)

/-- A file that is not the one that is opened keeps its contents. -/
theorem node?_openNode {path : Text} {access : Access} {n : Nat} {b : Bytes}
    (hfile : s.node? n = some (.file b)) (hne : (s.openNode path access).1 ≠ .ok n) :
    (s.openNode path access).2.node? n = some (.file b) := by
  rcases s.openNode_cases path access with hs | ⟨m, hm, hs⟩ | ⟨d, name, -, -, hs⟩
  · rw [hs, hfile]
  · have hn : n ≠ m := by
      rintro rfl
      exact hne hm
    rw [hs, node?_refill s m [] hn, hfile]
  · rw [hs, node?_create_file hfile]

/-! ## Back from an opened file

What is opened is at most one file, and it may be new.  All other paths lead where they led before.
-/

/-- A new file is entered by no name. -/
theorem enter_new (s : Store) (d : Nat) (name : Text) (b : Bytes) (name' : Text) :
    (s.create d name (.file b)).enter s.nodes.size name' = .error .notDirectory := by
  rw [Store.enter, node?_create, if_pos rfl]

/-- A name leads to the new file or where it led before. -/
theorem enter_of_create {d n m : Nat} {name name' : Text} {b : Bytes}
    (hm : (s.create d name (.file b)).enter n name' = .ok m) :
    m = s.nodes.size ∨ s.enter n name' = .ok m := by
  by_cases hnew : n = s.nodes.size
  · rw [hnew, enter_new] at hm
    simp at hm
  unfold Store.enter at hm ⊢
  rw [node?_create, if_neg hnew] at hm
  by_cases hd : n = d
  · rw [if_pos hd] at hm
    cases hnode : s.node? n with
    | none =>
      rw [hnode] at hm
      simp at hm
    | some node =>
      rw [hnode] at hm
      cases node with
      | file | device => simp [Node.bind] at hm
      | directory above entries =>
        simp only [Option.map_some, Node.bind] at hm ⊢
        rw [List.lookup_cons] at hm
        by_cases hname : name' = name
        · -- the new name itself, unless it is one that every directory has
          simp only [hname, beq_self_eq_true] at hm ⊢
          split at hm
          · simp at hm
          next hlong =>
          rw [if_neg hlong]
          split at hm
          · next hdot =>
            rw [if_pos hdot]
            exact .inr hm
          next hdot =>
          rw [if_neg hdot]
          split at hm
          · next hdots =>
            rw [if_pos hdots]
            exact .inr hm
          · exact .inl (Except.ok.inj hm).symm
        · rw [beq_false_of_ne hname] at hm
          exact .inr hm
  · rw [if_neg hd] at hm
    exact .inr hm

theorem follow_of_create {d n m : Nat} {name : Text} {b : Bytes} {names : List Text}
    (hold : m ≠ s.nodes.size) (hm : (s.create d name (.file b)).follow n names = .ok m) :
    s.follow n names = .ok m := by
  induction names generalizing n with
  | nil => exact hm
  | cons name' names ih =>
    rw [Store.follow] at hm ⊢
    split at hm
    · simp at hm
    next k hk =>
    rcases enter_of_create hk with rfl | hk'
    · -- beyond the new file there is nothing
      cases names with
      | nil => exact absurd (Except.ok.inj hm).symm hold
      | cons name'' names =>
        rw [Store.follow, enter_new] at hm
        simp at hm
    · rw [hk']
      exact ih hm

theorem follow_refill (s : Store) (k : Nat) (c : Bytes) (n : Nat) (names : List Text) :
    (s.refill k c).follow n names = s.follow n names := by
  induction names generalizing n with
  | nil => rfl
  | cons name names ih =>
    rw [Store.follow, Store.follow, enter_refill]
    cases s.enter n name with
    | error r => rfl
    | ok m => exact ih m

theorem find_refill (s : Store) (k : Nat) (c : Bytes) (path : Text) :
    (s.refill k c).find path = s.find path := by
  unfold Store.find
  simp only [follow_refill]

/-- A path that leads to another node than the one that was opened led there before. -/
theorem find_of_openNode {path path' : Text} {access : Access} {m : Nat}
    (hne : (s.openNode path access).1 ≠ .ok m)
    (hm : (s.openNode path access).2.find path' = .ok m) : s.find path' = .ok m := by
  rcases s.openNode_cases path access with hs | ⟨n, -, hs⟩ | ⟨d, name, hnew, -, hs⟩
  · rwa [hs] at hm
  · rwa [hs, find_refill] at hm
  · have hold : m ≠ s.nodes.size := by
      rintro rfl
      exact hne hnew
    rw [hs] at hm
    unfold Store.find at hm ⊢
    split at hm
    · simp at hm
    · exact follow_of_create hold hm

/-- A file that is not the one that was opened had its contents before. -/
theorem node?_of_openNode {path : Text} {access : Access} {m : Nat} {b : Bytes}
    (hne : (s.openNode path access).1 ≠ .ok m)
    (hm : (s.openNode path access).2.node? m = some (.file b)) : s.node? m = some (.file b) := by
  rcases s.openNode_cases path access with hs | ⟨n, hn, hs⟩ | ⟨d, name, hnew, -, hs⟩
  · rwa [hs] at hm
  · have hmn : m ≠ n := by
      rintro rfl
      exact hne hn
    rwa [hs, node?_refill s n [] hmn] at hm
  · have hold : m ≠ s.nodes.size := by
      rintro rfl
      exact hne hnew
    rw [hs, node?_create, if_neg hold] at hm
    split at hm
    · -- a directory with one more name is no file
      cases hnode : s.node? m with
      | none => simp [hnode] at hm
      | some node =>
        rw [hnode] at hm
        cases node with
        | directory | device => simp [Node.bind] at hm
        | file => simpa [Node.bind] using hm
    · exact hm

/-- A file that was opened for writing from the start is empty. -/
theorem eq_nil_of_openNode_write {path : Text} {n : Nat} {b : Bytes}
    (hn : (s.openNode path .write).1 = .ok n)
    (hb : (s.openNode path .write).2.node? n = some (.file b)) : b = [] := by
  unfold openNode at hn hb
  split at hn
  · simp at hn
  next hreadable =>
  rw [if_neg hreadable] at hb
  dsimp only at hn hb
  unfold openForWriting at hn hb
  split at hn
  · simp at hn
  · next d name hspot =>
    obtain rfl := Except.ok.inj hn
    rw [hspot] at hb
    dsimp only at hb
    rw [node?_create, if_pos rfl] at hb
    simpa using hb.symm
  next k hspot =>
  rw [hspot] at hb
  split at hn
  · simp at hn
  split at hn
  · simp at hn
  next hplain =>
  obtain rfl := Except.ok.inj hn
  simp only [reduceCtorEq, if_false, hplain, Bool.false_eq_true] at hb
  by_cases hk : ∃ c, s.node? k = some (.file c)
  · obtain ⟨c, hc⟩ := hk
    rw [node?_refill_self hc] at hb
    simpa using hb.symm
  · rw [refill_eq_self fun c hc => hk ⟨c, hc⟩] at hb
    exact absurd ⟨b, hb⟩ hk

/-! ## Opening with a lock -/

/-- Opening a file fails and leaves the handles as they are, or adds a handle for the node that is
opened. -/
theorem openFile_cases (s : Store) (path : Text) (mode : Mode) (lock : Lock) :
    (∃ r, s.openFile path mode lock = (.error r, (s.openNode path mode.access).2)) ∨
      ∃ node, (s.openNode path mode.access).1 = .ok node ∧
        s.openFile path mode lock =
          (.ok s.nextTicket,
            { (s.openNode path mode.access).2 with
              handles := { ticket := s.nextTicket, node, lock } :: s.handles
              nextTicket := s.nextTicket + 1 }) := by
  have hkept := s.openNode_snd path mode.access
  rcases hopen : s.openNode path mode.access with ⟨x, t⟩
  rw [hopen] at hkept
  unfold openFile
  rw [hopen]
  cases x with
  | error r => exact .inl ⟨r, rfl⟩
  | ok node =>
    dsimp only at hkept ⊢
    split
    · exact .inl ⟨_, rfl⟩
    split
    · exact .inl ⟨_, rfl⟩
    · refine .inr ⟨node, rfl, ?_⟩
      rw [hkept]

/-- An attempt to open a file changes nothing but nodes and handles. -/
theorem openFile_frame (s : Store) (path : Text) (mode : Mode) (lock : Lock) :
    (s.openFile path mode lock).2.nodes = (s.openNode path mode.access).2.nodes ∧
      (s.openFile path mode lock).2.unreadable = s.unreadable ∧
      (s.openFile path mode lock).2.shortReads = s.shortReads ∧
      (s.openFile path mode lock).2.offsetLimit = s.offsetLimit := by
  have hkept := s.openNode_snd path mode.access
  rcases s.openFile_cases path mode lock with ⟨r, hcase⟩ | ⟨node, -, hcase⟩
  all_goals
    rw [hcase, hkept]
    exact ⟨rfl, rfl, rfl, rfl⟩

/-- What comes of opening a file goes by the locks that were there before. -/
theorem openFile_fst (s : Store) (path : Text) (mode : Mode) (lock : Lock) :
    (s.openFile path mode lock).1 =
      match (s.openNode path mode.access).1 with
      | .error r => .error r
      | .ok n =>
        if !mode.isConvertible then .error .invalid
        else if s.isExcluded n lock then .error .locked else .ok s.nextTicket := by
  have hkept := s.openNode_snd path mode.access
  rcases hopen : s.openNode path mode.access with ⟨x, t⟩
  rw [hopen] at hkept
  dsimp only at hkept
  have hexcluded (n : Nat) : t.isExcluded n lock = s.isExcluded n lock := by
    rw [isExcluded, isExcluded, hkept]
  have hticket : t.nextTicket = s.nextTicket := by rw [hkept]
  unfold openFile
  rw [hopen]
  cases x with
  | error r => rfl
  | ok n =>
    dsimp only
    rw [hexcluded n, hticket]
    split
    · rfl
    · split <;> rfl

/-- When a file is opened with a lock. -/
theorem openFile_isOk_iff (s : Store) (path : Text) (mode : Mode) (lock : Lock) :
    (∃ ticket t, s.openFile path mode lock = (.ok ticket, t)) ↔
      ∃ node, (s.openNode path mode.access).1 = .ok node ∧ mode.isConvertible = true ∧
        s.isExcluded node lock = false := by
  have hresult : (∃ ticket t, s.openFile path mode lock = (.ok ticket, t)) ↔
      ∃ ticket, (s.openFile path mode lock).1 = .ok ticket :=
    ⟨fun ⟨ticket, t, h⟩ => ⟨ticket, congrArg Prod.fst h⟩,
      fun ⟨ticket, h⟩ => ⟨ticket, _, Prod.ext h rfl⟩⟩
  rw [hresult, openFile_fst]
  cases (s.openNode path mode.access).1 with
  | error r => simp
  | ok n =>
    dsimp only
    cases hmode : mode.isConvertible <;> cases hlock : s.isExcluded n lock <;> simp [hlock]

/-- Closing a handle that is not there does nothing. -/
theorem close_of_not_isOpen {ticket : Nat} (h : s.isOpen ticket = false) :
    s.close ticket = s := by
  have hall : (s.handles.filter fun g => g.ticket != ticket) = s.handles := by
    rw [List.filter_eq_self]
    intro g hg
    rw [isOpen, List.any_eq_false] at h
    simpa using h g hg
  rw [close, hall]

end BlockAccess.Files.Store

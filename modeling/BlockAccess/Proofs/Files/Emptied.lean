import Mathlib.Control.Monad.Basic
import BlockAccess.Proofs.Files.Opened

/-!
# Files that are emptied when they are opened

Opening a file for writing from the start empties it, and opening it in another mode leaves it as it
is.  It is emptied before the lock is tried, so it makes no difference whether the lock can be had:
`Store.contents?_openFile` tells the contents of all files after any attempt to open one.

A lock that is refused therefore protects the files only from those who do not write from the start
(`Store.turnedAway`).  It does protect the names, the locks and all other files.
-/

namespace BlockAccess.Files.Store

variable {s t : Store} {path : Text} {access : Access} {n : Nat} {b : Bytes}

/-- Opening a file that is there empties it if it is to be written from the start, and does nothing
otherwise. -/
theorem openNode_snd_of_file (hfile : s.node? n = some (.file b))
    (hn : (s.openNode path access).1 = .ok n) :
    (s.openNode path access).2 = if access = .write then s.refill n [] else s := by
  obtain ⟨hreadable, hcreate, hfind⟩ := (openNode_eq_ok_iff hfile).1 hn
  have hspot := (spot_eq_taken_iff hfile).2 hfind
  unfold openNode
  rw [if_neg (by simpa using hreadable)]
  cases access with
  | read | update => rfl
  | create => exact absurd rfl hcreate
  | write | append =>
    dsimp only
    unfold openForWriting
    rw [hspot]
    simp [not_isDirectory hfile]

/-! ## All files -/

/-- Opening a path in this way would empty the file at another path. -/
def Empties (s : Store) (path : Text) (access : Access) (file : Text) : Prop :=
  access = .write ∧ Text.untilNul path ∉ s.unreadable ∧ s.find path = s.find file

instance (s : Store) (path : Text) (access : Access) (file : Text) :
    Decidable (s.Empties path access file) := inferInstanceAs (Decidable (_ ∧ _ ∧ _))

/-- A path leads to a file exactly if it did so before something was opened. -/
theorem find_openNode_iff (hfile : s.node? n = some (.file b)) (path : Text) (access : Access)
    (path' : Text) : (s.openNode path access).2.find path' = .ok n ↔ s.find path' = .ok n := by
  by_cases hn : (s.openNode path access).1 = .ok n
  · rw [openNode_snd_of_file hfile hn]
    split
    · rw [find_refill]
    · rfl
  · exact ⟨find_of_openNode hn, (s.extends_openNode path access).find⟩

/-- The files after opening one. -/
theorem contents?_openNode {file : Text} {S : Bytes} (h : s.contents? file = some S) :
    (s.Empties path access file → (s.openNode path access).2.contents? file = some []) ∧
      (¬s.Empties path access file → (s.openNode path access).2.contents? file = some S) := by
  obtain ⟨n, hfind, hfile⟩ := contents?_eq_some h
  have hleads := (find_openNode_iff hfile path access file).2 hfind
  have hopens : (s.openNode path access).1 = .ok n ↔
      Text.untilNul path ∉ s.unreadable ∧ access ≠ .create ∧ s.find path = .ok n :=
    openNode_eq_ok_iff hfile
  unfold Empties
  rw [hfind]
  constructor
  · rintro ⟨rfl, hreadable, hsame⟩
    have hn := hopens.2 ⟨hreadable, by decide, hsame⟩
    refine contents?_eq hleads ?_
    rw [openNode_snd_of_file hfile hn, if_pos rfl, node?_refill_self hfile]
  · intro hspared
    refine contents?_eq hleads ?_
    by_cases hn : (s.openNode path access).1 = .ok n
    · obtain ⟨hreadable, -, hsame⟩ := hopens.1 hn
      rw [openNode_snd_of_file hfile hn, if_neg fun hwrite => hspared ⟨hwrite, hreadable, hsame⟩]
      exact hfile
    · exact node?_openNode hfile hn

/-! ## Attempts with a lock -/

/-- **The files after an attempt to open one**, whatever comes of it. -/
theorem contents?_openFile {file : Text} {S : Bytes} (h : s.contents? file = some S) (path : Text)
    (mode : Mode) (lock : Lock) :
    (s.Empties path mode.access file →
        (s.openFile path mode lock).2.contents? file = some []) ∧
      (¬s.Empties path mode.access file →
        (s.openFile path mode lock).2.contents? file = some S) := by
  obtain ⟨hnodes, -⟩ := s.openFile_frame path mode lock
  rw [contents?_of_nodes hnodes]
  exact contents?_openNode h

/-! ## Locks that are refused

Following a path is never refused for a lock.
-/

/-- A refusal that is handed on is still not for a lock. -/
theorem error_ne_locked {α β : Type} {x : Except Refusal α} {r : Refusal} (hx : x = .error r)
    (hne : x ≠ .error .locked) : (.error r : Except Refusal β) ≠ .error .locked := by
  intro h
  obtain rfl := Except.error.inj h
  exact hne hx

theorem enter_ne_locked (s : Store) (n : Nat) (name : Text) :
    s.enter n name ≠ .error .locked := by
  unfold Store.enter
  repeat' split
  all_goals simp

theorem follow_ne_locked (s : Store) (n : Nat) (names : List Text) :
    s.follow n names ≠ .error .locked := by
  induction names generalizing n with
  | nil => simp [Store.follow]
  | cons name names ih =>
    rw [Store.follow]
    split
    · next hr => exact error_ne_locked hr (s.enter_ne_locked n name)
    · exact ih _

theorem route_ne_locked (path : Text) : route path ≠ .error .locked := by
  unfold route
  dsimp only
  repeat' split
  all_goals simp

theorem find_ne_locked (s : Store) (path : Text) : s.find path ≠ .error .locked := by
  unfold Store.find
  split
  · next hr => exact error_ne_locked hr (route_ne_locked path)
  · exact s.follow_ne_locked _ _

theorem spot_ne_locked (s : Store) (path : Text) : s.spot path ≠ .error .locked := by
  unfold spot
  split
  · next hr => exact error_ne_locked hr (route_ne_locked path)
  split
  · split
    · next hr => exact error_ne_locked hr (s.follow_ne_locked _ _)
    · simp
  unfold locate
  split
  · next hr => exact error_ne_locked hr (s.follow_ne_locked _ _)
  split
  · simp
  · simp
  · next hr => exact error_ne_locked hr (s.enter_ne_locked _ _)

theorem openForWriting_ne_locked (s : Store) (path : Text) (access : Access) :
    (s.openForWriting path access).1 ≠ .error .locked := by
  unfold openForWriting
  split
  · next hr => exact error_ne_locked hr (s.spot_ne_locked path)
  · simp
  · repeat' split
    all_goals simp

/-- Nobody asks for the locks on a file before it is opened. -/
theorem openNode_ne_locked (s : Store) (path : Text) (access : Access) :
    (s.openNode path access).1 ≠ .error .locked := by
  unfold openNode
  split
  · simp
  cases access with
  | read => exact s.find_ne_locked path
  | update =>
    dsimp only
    unfold openForUpdate
    split
    · next hr => exact error_ne_locked hr (s.find_ne_locked path)
    · split <;> simp
  | write | append | create => exact s.openForWriting_ne_locked path _

/-- A lock is refused if the file was opened and somebody has a lock on it that excludes it. -/
theorem openFile_eq_locked_iff (s : Store) (path : Text) (mode : Mode) (lock : Lock) :
    (s.openFile path mode lock).1 = .error .locked ↔
      ∃ n, (s.openNode path mode.access).1 = .ok n ∧ mode.isConvertible = true ∧
        s.isExcluded n lock = true := by
  have hnever := s.openNode_ne_locked path mode.access
  rw [openFile_fst]
  cases hopen : (s.openNode path mode.access).1 with
  | error r =>
    rw [hopen] at hnever
    simpa using hnever
  | ok n =>
    dsimp only
    cases hmode : mode.isConvertible <;> cases hlock : s.isExcluded n lock <;> simp [hlock]

theorem contents?_congr {file : Text} (h : s.find path = s.find file) :
    s.contents? path = s.contents? file := by
  rw [contents?, contents?, h]

/-- What is no file does not become one by being emptied. -/
theorem contents?_refill_eq_none {file : Text} {k : Nat} {c : Bytes}
    (h : s.contents? file = none) : (s.refill k c).contents? file = none := by
  by_cases hk : ∃ b, s.node? k = some (.file b)
  · obtain ⟨b, hb⟩ := hk
    rw [Option.eq_none_iff_forall_ne_some]
    intro S hS
    obtain ⟨m, hfind, hnode⟩ := contents?_eq_some hS
    rw [find_refill] at hfind
    have hold : ∃ S', s.node? m = some (.file S') := by
      by_cases hm : m = k
      · exact ⟨b, hm ▸ hb⟩
      · exact ⟨S, (node?_refill s k c hm).symm.trans hnode⟩
    obtain ⟨S', hS'⟩ := hold
    rw [contents?_eq hfind hS'] at h
    simp at h
  · rw [refill_eq_self fun b hb => hk ⟨b, hb⟩, h]

/-- What a refused lock leaves of the files. -/
structure TurnedAway (s : Store) (path : Text) (access : Access) (t : Store) : Prop where
  handles : t.handles = s.handles
  /-- Paths lead where they led, and where there was a file there still is one. -/
  extends' : s.Extends t
  /-- A file that is not at the path, or is not written from the start, is as it was. -/
  kept : ∀ file S, s.contents? file = some S → (access = .write → s.find path ≠ s.find file) →
    t.contents? file = some S
  /-- A file that is written from the start is empty, by whatever name it is called. -/
  emptied : ∀ file S, s.contents? file = some S → access = .write → s.find path = s.find file →
    t.contents? file = some []
  /-- Nothing is lost exactly if nothing is written from the start or there was nothing to lose. -/
  protects_iff : (∀ file S, s.contents? file = some S → t.contents? file = some S) ↔
    (access = .write → ∀ S, s.contents? path = some S → S = [])
  /-- No file is made, as all locks are on files that are there. -/
  unmade : (∀ h ∈ s.handles, h.node < s.nodes.size) →
    ∀ file, s.contents? file = none → t.contents? file = none

/-- **A refused lock protects all files but the one that is written from the start.** -/
theorem turnedAway {mode : Mode} {lock : Lock}
    (h : s.openFile path mode lock = (.error .locked, t)) : s.TurnedAway path mode.access t := by
  obtain ⟨n, hn, -, hexcluded⟩ :=
    (s.openFile_eq_locked_iff path mode lock).1 (congrArg Prod.fst h)
  obtain rfl : t = (s.openNode path mode.access).2 := by
    rcases s.openFile_cases path mode lock with ⟨r, hcase⟩ | ⟨node, -, hcase⟩
    · exact congrArg Prod.snd (h.symm.trans hcase)
    · simp [h] at hcase
  have hreadable := notMem_unreadable hn
  have hkept (file : Text) (S : Bytes) (hS : s.contents? file = some S)
      (hspared : mode.access = .write → s.find path ≠ s.find file) :
      (s.openNode path mode.access).2.contents? file = some S :=
    (contents?_openNode hS).2 fun hempties => hspared hempties.1 hempties.2.2
  have hemptied (file : Text) (S : Bytes) (hS : s.contents? file = some S)
      (hwrite : mode.access = .write) (hsame : s.find path = s.find file) :
      (s.openNode path mode.access).2.contents? file = some [] :=
    (contents?_openNode hS).1 ⟨hwrite, hreadable, hsame⟩
  constructor
  case handles => rw [s.openNode_snd path mode.access]
  case extends' => exact s.extends_openNode path mode.access
  case kept => exact hkept
  case emptied => exact hemptied
  case protects_iff =>
    constructor
    · intro hall hwrite S hS
      have hsame := (hall path S hS).symm.trans (hemptied path S hS hwrite rfl)
      exact Option.some.inj hsame
    · intro hempty file S hS
      by_cases hwritten : mode.access = .write ∧ s.find path = s.find file
      · obtain ⟨hwrite, hsame⟩ := hwritten
        obtain rfl := hempty hwrite S ((contents?_congr hsame).trans hS)
        exact hemptied file [] hS hwrite hsame
      · exact hkept file S hS fun hwrite hsame => hwritten ⟨hwrite, hsame⟩
  case unmade =>
    intro hthere file hnone
    rcases s.openNode_cases path mode.access with hs | ⟨k, -, hs⟩ | ⟨d, name, hnew, -, hs⟩
    · rw [hs, hnone]
    · rw [hs]
      exact contents?_refill_eq_none hnone
    · -- somebody would have a lock on the file that was just made
      obtain ⟨g, hg, hon⟩ := List.any_eq_true.1 hexcluded
      simp only [Bool.and_eq_true, beq_iff_eq] at hon
      have hlt := hthere g hg
      rw [hon.1, Except.ok.inj (hn.symm.trans hnew)] at hlt
      exact absurd hlt (Nat.lt_irrefl _)

end BlockAccess.Files.Store

import BlockAccess.Proofs.Source.Holding
import Mathlib.Data.List.Nodup

/-!
# Locks go by the book

Main result: after every call of a client the locks on the files are those of the open entries of
its book, one for each (`Client.orderly_run`).  So nobody gets an exclusive lock on the file of an
open block, and everybody gets any lock on a file whose locks were all given up.

The invariant is `Client.Accounted`: the handles are those that the open entries stand for, no two
entries stand for the same one, and each entry is right about its file.  It is kept when an entry is
made (`Accounted.opened`) and when one is used (`Accounted.used`); closing takes away one handle
because all numbers are different.  What the locks are follows from it (`Accounted.balanced`).
-/

namespace BlockAccess

open Files (Handle Lock Mode Store)

/-! ## The book and the files -/

/-- An entry is right about the thing it stands for and about the file. -/
structure Held.Sound (s : Store) (h : Held) : Prop where
  stream : ∀ b t, h.asset = .stream b t → t.Tidy ∧ t.closed = h.isClosed
  shared : ∀ b, h.asset.block? = some b → h.lock = .shared
  leads : ∀ b, h.asset.block? = some b →
    s.find b.path = .ok h.node ∧ ∃ S, s.node? h.node = some (.file S)

theorem Held.Sound.of_extends {s t : Store} {h : Held} (hs : h.Sound s) (hst : s.Extends t) :
    h.Sound t where
  stream := hs.stream
  shared := hs.shared
  leads b hb := by
    obtain ⟨hfind, S, hS⟩ := hs.leads b hb
    exact ⟨hst.find hfind, hst.file hS⟩

/-- The entry after its thing was used. -/
def Held.used (trouble : LocalReader → Site → Option Failure) (h : Held) (u : Use) (w : Site) :
    Held :=
  { h with
    asset := (h.asset.use trouble u w).2.1
    isClosed := h.isClosed || h.asset.closedBy u }

theorem Held.Sound.used {s : Store} {h : Held} (hs : h.Sound s)
    (trouble : LocalReader → Site → Option Failure) (u : Use) (w : Site) :
    (h.used trouble u w).Sound s where
  stream b t ht := by
    obtain ⟨t₀, hasset⟩ := Asset.eq_stream_of_use ht
    obtain ⟨htidy, hclosed⟩ := hs.stream b t₀ hasset
    obtain ⟨t', ht', htidy', hclosed'⟩ := Asset.closed_use trouble (b := b) htidy u w
    rw [Held.used, hasset] at ht
    obtain ⟨-, rfl⟩ := Asset.stream.inj (ht'.symm.trans ht)
    refine ⟨htidy', ?_⟩
    rw [hclosed', hclosed, Held.used, hasset]
  shared b hb := hs.shared b (by rw [← Asset.block?_use trouble h.asset u w]; exact hb)
  leads b hb := hs.leads b (by rw [← Asset.block?_use trouble h.asset u w]; exact hb)

/-- The handles that the open ones of some entries stand for. -/
def book (l : List Held) : List Handle := (l.filter (!·.isClosed)).map Held.handle

theorem book_append (l₁ l₂ : List Held) : book (l₁ ++ l₂) = book l₁ ++ book l₂ := by
  simp [book]

theorem book_cons (h : Held) (l : List Held) :
    book (h :: l) = if h.isClosed then book l else h.handle :: book l := by
  cases hc : h.isClosed <;> simp [book, hc]

/-- Of the handles of a book none is dropped that has another number. -/
theorem filter_book {l : List Held} {ticket : Nat} (h : ∀ g ∈ l, g.asset.ticket ≠ ticket) :
    (book l).filter (fun g => g.ticket != ticket) = book l := by
  rw [List.filter_eq_self]
  intro g hg
  obtain ⟨e, he, rfl⟩ := List.mem_map.1 hg
  exact bne_iff_ne.2 (h e (List.mem_of_mem_filter he))

namespace Client

/-- The book of a client is right about its files. -/
structure Accounted (c : Client) : Prop where
  handles : c.site.files.handles.Perm (book c.held)
  tickets : (c.held.map (·.asset.ticket)).Nodup
  fresh : ∀ h ∈ c.held, h.asset.ticket < c.site.files.nextTicket
  sound : ∀ h ∈ c.held, h.Sound c.site.files

variable {c : Client}

/-- A new entry goes with a new handle. -/
theorem Accounted.opened (hc : c.Accounted) {h : Held} {w : Site}
    (hw : Files.Opened c.site.files w.files h.node h.lock h.asset.ticket)
    (hopen : h.isClosed = false) (hsound : h.Sound w.files) :
    Accounted { site := w, held := c.held ++ [h] } where
  handles := by
    have hbook : book (c.held ++ [h]) = book c.held ++ [h.handle] := by
      rw [book_append, book_cons, hopen]
      rfl
    rw [hw.handles, hbook]
    exact ((hc.handles.cons h.handle)).trans (List.perm_append_singleton _ _).symm
  tickets := by
    rw [List.map_append, List.nodup_append]
    refine ⟨hc.tickets, List.nodup_singleton _, ?_⟩
    intro t ht u hu
    obtain ⟨g, hg, rfl⟩ := List.mem_map.1 ht
    obtain rfl : u = h.asset.ticket := by simpa using hu
    have hlt := hc.fresh g hg
    rw [← hw.ticket_eq] at hlt
    exact Nat.ne_of_lt hlt
  fresh g hg := by
    rw [hw.nextTicket]
    rcases List.mem_append.1 hg with hg | hg
    · exact Nat.lt_succ_of_lt (hc.fresh g hg)
    · obtain rfl : g = h := by simpa using hg
      rw [hw.ticket_eq]
      exact Nat.lt_succ_self _
  sound g hg := by
    rcases List.mem_append.1 hg with hg | hg
    · exact (hc.sound g hg).of_extends hw.extends'
    · obtain rfl : g = h := by simpa using hg
      exact hsound

/-- Files may change in other ways than by handles and names. -/
theorem Accounted.of_extends (hc : c.Accounted) {w : Site}
    (hhandles : w.files.handles = c.site.files.handles)
    (hnext : w.files.nextTicket = c.site.files.nextTicket)
    (hextends : c.site.files.Extends w.files) : Accounted { c with site := w } where
  handles := hhandles ▸ hc.handles
  tickets := hc.tickets
  fresh h hh := hnext ▸ hc.fresh h hh
  sound h hh := (hc.sound h hh).of_extends hextends

section Entry

variable {front back : List Held} {h : Held}

/-- No two entries have the same handle. -/
theorem Accounted.ticket_ne (hc : c.Accounted) (hheld : c.held = front ++ h :: back) :
    ∀ g ∈ front ++ back, g.asset.ticket ≠ h.asset.ticket := by
  have hnodup := hc.tickets
  rw [hheld, List.map_append, List.map_cons, List.nodup_middle, List.nodup_cons,
    ← List.map_append] at hnodup
  intro g hg heq
  exact hnodup.1 (List.mem_map.2 ⟨g, hg, heq⟩)

/-- Without the handle of an entry the files have those of the other entries. -/
theorem Accounted.handles_close (hc : c.Accounted) (hheld : c.held = front ++ h :: back) :
    (c.site.files.close h.asset.ticket).handles.Perm (book (front ++ back)) := by
  have hothers := filter_book (hc.ticket_ne hheld)
  have hbook := hc.handles.filter fun g => g.ticket != h.asset.ticket
  rw [hheld, book_append, List.filter_append, book_cons] at hbook
  rw [book_append, List.filter_append] at hothers
  have hback : (if h.isClosed then book back else h.handle :: book back).filter
      (fun g => g.ticket != h.asset.ticket) =
        (book back).filter fun g => g.ticket != h.asset.ticket := by
    split
    · rfl
    · simp [Held.handle]
  rw [hback, hothers, ← book_append] at hbook
  exact hbook

/-- The handle of a closed entry is not open. -/
theorem Accounted.not_isOpen (hc : c.Accounted) (hheld : c.held = front ++ h :: back)
    (hclosed : h.isClosed = true) : c.site.files.isOpen h.asset.ticket = false := by
  rw [Store.isOpen, List.any_eq_false]
  intro g hg
  have hbook := hc.handles.mem_iff.1 hg
  rw [hheld, book_append, book_cons, if_pos hclosed, ← book_append] at hbook
  obtain ⟨e, he, rfl⟩ := List.mem_map.1 hbook
  have hticket := hc.ticket_ne hheld e (List.mem_of_mem_filter he)
  simpa [Held.handle] using hticket

end Entry

/-- The entries in front of one and behind it stay as they are when it is changed. -/
theorem exists_split {l : List Held} {i : Nat} {h : Held} (hi : l[i]? = some h) :
    ∃ front back, l = front ++ h :: back ∧ ∀ g, l.set i g = front ++ g :: back := by
  obtain ⟨hlt, rfl⟩ := List.getElem?_eq_some_iff.1 hi
  refine ⟨l.take i, l.drop (i + 1), ?_, fun g => ?_⟩
  · rw [List.getElem_cons_drop, List.take_append_drop]
  · rw [List.set_eq_take_append_cons_drop, if_pos hlt]

/-- An entry of the book may be used in any way. -/
theorem Accounted.used (hc : c.Accounted) (trouble : LocalReader → Site → Option Failure)
    {front back : List Held} {h : Held} (hheld : c.held = front ++ h :: back) (u : Use) :
    Accounted
      { site := (h.asset.use trouble u c.site).2.2
        held := front ++ h.used trouble u c.site :: back } := by
  have hticket : (h.used trouble u c.site).asset.ticket = h.asset.ticket :=
    h.asset.ticket_use trouble u c.site
  have hhandle : (h.used trouble u c.site).handle = h.handle := by
    rw [Held.handle, hticket]
    rfl
  have hhere : h ∈ c.held := by
    rw [hheld]
    exact List.mem_append_right _ List.mem_cons_self
  have hsound : ∀ g ∈ front ++ h.used trouble u c.site :: back, g.Sound c.site.files := by
    intro g hg
    rcases List.mem_append.1 hg with hg | hg
    · exact hc.sound g (hheld ▸ List.mem_append_left _ hg)
    rcases List.mem_cons.1 hg with rfl | hg
    · exact (hc.sound h hhere).used trouble u c.site
    · exact hc.sound g (hheld ▸ List.mem_append_right _ (List.mem_cons_of_mem _ hg))
  have htickets : (front ++ h.used trouble u c.site :: back).map (·.asset.ticket) =
      c.held.map (·.asset.ticket) := by
    rw [hheld, List.map_append, List.map_append, List.map_cons, List.map_cons, hticket]
  have hfresh : ∀ g ∈ front ++ h.used trouble u c.site :: back,
      g.asset.ticket < c.site.files.nextTicket := by
    intro g hg
    have hmem : g.asset.ticket ∈ c.held.map (·.asset.ticket) :=
      htickets ▸ List.mem_map.2 ⟨g, hg, rfl⟩
    obtain ⟨e, he, heq⟩ := List.mem_map.1 hmem
    exact heq ▸ hc.fresh e he
  have hbook : (book c.held).Perm c.site.files.handles := hc.handles.symm
  rw [hheld, book_append, book_cons] at hbook
  cases hu : h.asset.closedBy u with
  | false =>
    have hfiles := Asset.files_use trouble hu c.site
    have hclosed : (h.used trouble u c.site).isClosed = h.isClosed := by
      show (h.isClosed || h.asset.closedBy u) = h.isClosed
      rw [hu, Bool.or_false]
    refine ⟨?_, htickets ▸ hc.tickets, ?_, ?_⟩
    · rw [hfiles, book_append, book_cons, hclosed, hhandle]
      exact hbook.symm
    · rw [hfiles]
      exact hfresh
    · rw [hfiles]
      exact hsound
  | true =>
    have hstream : ∀ b s, h.asset = .stream b s → s.closed = true →
        c.site.files.isOpen b.pin = false := by
      intro b s hs hclosed
      have hpin : b.pin = h.asset.ticket := by rw [hs]; rfl
      rw [hpin]
      exact hc.not_isOpen hheld (((hc.sound h hhere).stream b s hs).2 ▸ hclosed)
    have hfiles := Asset.files_use_of_close trouble hu hstream
    have hclosed : (h.used trouble u c.site).isClosed = true := by
      show (h.isClosed || h.asset.closedBy u) = true
      rw [hu, Bool.or_true]
    have hnodes : c.site.files.Extends (c.site.files.close h.asset.ticket) :=
      Store.extends_of_nodes rfl
    refine ⟨?_, htickets ▸ hc.tickets, ?_, ?_⟩
    · rw [hfiles, book_append, book_cons, if_pos hclosed, ← book_append]
      exact hc.handles_close hheld
    · rw [hfiles]
      exact hfresh
    · rw [hfiles]
      exact fun g hg => (hsound g hg).of_extends hnodes

/-! ## Calls -/

/-- Opening something with a lock leaves book and handles as they were, or makes one entry. -/
inductive Opens (lock : Lock) (c : Client) : Bool → Client → Prop
  | refused {d : Client} (held : d.held = c.held)
    (handles : d.site.files.handles = c.site.files.handles) : Opens lock c false d
  | entered {d : Client} (h : Held) (held : d.held = c.held ++ [h]) (lock_eq : h.lock = lock)
    (isOpen : h.isClosed = false) : Opens lock c true d

theorem Accounted.openBlock (hc : c.Accounted) (l : Locator) {asset : LocalBlock → Asset}
    (hticket : ∀ b, (asset b).ticket = b.pin) (hblock : ∀ b, (asset b).block? = some b)
    (hstream : ∀ b b' s, asset b = .stream b' s → s.Tidy ∧ s.closed = false) :
    Opens .shared c (c.openBlock l asset).1 (c.openBlock l asset).2 ∧
      (c.openBlock l asset).2.Accounted := by
  rcases h : l.acquire c.site with ⟨x, w⟩
  unfold Client.openBlock
  rw [h]
  rcases Locator.acquire_cases h with ⟨⟨f, rfl⟩, hfiles⟩ |
    ⟨b, node, S, rfl, hopen, hfind, hnode, hopened⟩
  · dsimp only
    refine ⟨.refused rfl (by rw [hfiles]), hc.of_extends (by rw [hfiles]) (by rw [hfiles]) ?_⟩
    rw [hfiles]
    exact Store.extends_of_nodes rfl
  · dsimp only
    unfold enter
    rw [hopen]
    dsimp only
    refine ⟨.entered _ rfl rfl rfl, hc.opened (h := ⟨asset b, node, .shared, false⟩) ?_ rfl ?_⟩
    · rw [hticket b]
      exact hopened
    · have hsound : Held.Sound c.site.files ⟨asset b, node, .shared, false⟩ := by
        refine ⟨fun b' s hs => hstream b b' s hs, fun _ _ => rfl, fun b' hb' => ?_⟩
        obtain rfl := Option.some.inj ((hblock b).symm.trans hb')
        exact ⟨hfind, S, hnode⟩
      exact hsound.of_extends hopened.extends'

theorem Accounted.openFile (hc : c.Accounted) (path : Text) (mode : Mode) (lock : Lock) :
    Opens lock c (c.openFile path mode lock).1 (c.openFile path mode lock).2 ∧
      (c.openFile path mode lock).2.Accounted := by
  obtain ⟨hresult, hfiles⟩ := Files.openFile_site path mode lock c.site
  have hextends := c.site.files.extends_openNode path mode.access
  have hkept := c.site.files.openNode_snd path mode.access
  unfold Client.openFile
  rcases hopen : Files.openFile path mode lock c.site with ⟨x, w⟩
  rw [hopen] at hresult hfiles
  rcases c.site.files.openFile_cases path mode lock with ⟨r, hcase⟩ | ⟨node, hnode, hcase⟩
  · rw [hcase] at hresult hfiles
    dsimp only at hresult hfiles
    subst hresult
    dsimp only
    refine ⟨.refused rfl ?_, hc.of_extends ?_ ?_ (hfiles ▸ hextends)⟩
    all_goals rw [hfiles, hkept]
  · rw [hcase] at hresult hfiles
    dsimp only at hresult hfiles
    subst hresult
    dsimp only
    unfold enter
    rw [hnode]
    dsimp only
    refine ⟨.entered _ rfl rfl rfl,
      hc.opened (h := ⟨.file c.site.files.nextTicket, node, lock, false⟩) ?_ rfl ?_⟩
    · refine ⟨rfl, by rw [hfiles]; rfl, by rw [hfiles], ?_⟩
      rw [hfiles]
      exact hextends.trans (Store.extends_of_nodes rfl)
    · exact ⟨fun b s hs => by simp at hs, fun b hb => by simp [Asset.block?] at hb,
        fun b hb => by simp [Asset.block?] at hb⟩

/-! ## What the book says of locks -/

/-- The locks on the files are those of the book. -/
structure Balanced (c : Client) : Prop where
  /-- One lock for each entry that is not closed, on its file and of its kind, and no others. -/
  locks : (c.site.files.handles.map fun g => (g.node, g.lock)).Perm
    (c.standing.map fun h => (h.node, h.lock))
  /-- The lock of a block is shared, and its path still leads to its file. -/
  blocks : ∀ h ∈ c.held, ∀ b, h.asset.block? = some b →
    h.lock = .shared ∧ c.site.files.find b.path = .ok h.node
  /-- The file of an open block is not opened with an exclusive lock, in whatever mode. -/
  pinned : ∀ h ∈ c.standing, ∀ b, h.asset.block? = some b → ∀ mode,
    ∃ r s, c.site.files.openFile b.path mode .exclusive = (.error r, s)
  /-- A lock is given on a file that can be opened at all, unless an open entry for that file is in
  the way. -/
  grants : ∀ path mode lock,
    (∃ t s, c.site.files.openFile path mode lock = (.ok t, s)) ↔
      (∃ t s, c.site.files.openFile path mode .none = (.ok t, s)) ∧
        ∀ h ∈ c.standing, (c.site.files.openNode path mode.access).1 = .ok h.node →
          h.lock.excludes lock = false

/-- What excludes a lock is an open entry of the book. -/
theorem Accounted.isExcluded_eq_false (hc : c.Accounted) (node : Nat) (lock : Lock) :
    c.site.files.isExcluded node lock = false ↔
      ∀ h ∈ c.standing, h.node = node → h.lock.excludes lock = false := by
  rw [Store.isExcluded, List.any_eq_false]
  constructor
  · intro hall h hh hnode
    have hmem : h.handle ∈ c.site.files.handles :=
      hc.handles.mem_iff.2 (List.mem_map.2 ⟨h, hh, rfl⟩)
    have hnot := hall _ hmem
    simpa [Held.handle, hnode] using hnot
  · intro hall g hg
    obtain ⟨h, hh, rfl⟩ := List.mem_map.1 (hc.handles.mem_iff.1 hg)
    by_cases hnode : h.node = node
    · simp [Held.handle, hall h hh hnode]
    · simp [Held.handle, hnode]

theorem Accounted.balanced (hc : c.Accounted) : c.Balanced where
  locks := by
    have hmap := hc.handles.map fun g => (g.node, g.lock)
    rw [book, List.map_map] at hmap
    exact hmap
  blocks h hh b hb := ⟨(hc.sound h hh).shared b hb, ((hc.sound h hh).leads b hb).1⟩
  pinned h hh b hb mode := by
    have hsound := hc.sound h (List.mem_of_mem_filter hh)
    obtain ⟨hfind, S, hS⟩ := hsound.leads b hb
    rcases hopen : c.site.files.openFile b.path mode .exclusive with ⟨r | t, s⟩
    · exact ⟨r, s, rfl⟩
    · -- it would be this file, on which the entry has a lock
      obtain ⟨node, hnode, -, hfree⟩ :=
        (c.site.files.openFile_isOk_iff b.path mode .exclusive).1 ⟨t, s, hopen⟩
      obtain rfl : node = h.node := Store.openNode_eq hfind hS hnode
      have hnot := (hc.isExcluded_eq_false _ _).1 hfree h hh rfl
      rw [hsound.shared b hb] at hnot
      simp [Lock.excludes] at hnot
  grants path mode lock := by
    have hnone (node : Nat) : c.site.files.isExcluded node .none = false := by
      rw [hc.isExcluded_eq_false]
      intro h _ _
      cases h.lock <;> rfl
    rw [Store.openFile_isOk_iff, Store.openFile_isOk_iff]
    constructor
    · rintro ⟨node, hnode, hmode, hfree⟩
      refine ⟨⟨node, hnode, hmode, hnone node⟩, fun h hh hfile => ?_⟩
      obtain rfl := Except.ok.inj (hnode.symm.trans hfile)
      exact (hc.isExcluded_eq_false _ _).1 hfree h hh rfl
    · rintro ⟨⟨node, hnode, hmode, -⟩, hall⟩
      refine ⟨node, hnode, hmode, (hc.isExcluded_eq_false _ _).2 fun h hh hfile => ?_⟩
      exact hall h hh (hfile ▸ hnode)

/-! ## Runs -/

/-- A call of a client goes by the book. -/
structure Orderly (a : Act Call Bool Client) : Prop where
  opens : ∀ lock, a.call.lock? = some lock → Opens lock a.before a.result a.after
  /-- What does not close anything leaves all handles as they are, however it ends. -/
  uses : ∀ i u, a.call = .use i u →
    (∀ h, a.before.held[i]? = some h → h.asset.closedBy u = false) →
    a.after.site.files.handles = a.before.site.files.handles
  /-- What closes something gives its handle up, however it ends. -/
  closes : ∀ i u h, a.call = .use i u → a.before.held[i]? = some h →
    h.asset.closedBy u = true → a.after.site.files.isOpen h.asset.ticket = false
  balanced : a.after.Balanced

theorem perform_use {trouble : LocalReader → Site → Option Failure} {i : Nat} {u : Use} {h : Held}
    (hi : c.held[i]? = some h) : (perform trouble (.use i u) c).2 =
      { site := (h.asset.use trouble u c.site).2.2
        held := c.held.set i (h.used trouble u c.site) } := by
  simp only [perform, hi]
  rfl

theorem perform_use_none {trouble : LocalReader → Site → Option Failure} {i : Nat} {u : Use}
    (hi : c.held[i]? = none) : (perform trouble (.use i u) c).2 = c := by
  simp only [perform, hi]

/-- A call that opens something keeps the book right, with one more entry or none. -/
theorem Accounted.opens (hc : c.Accounted) (trouble : LocalReader → Site → Option Failure)
    {call : Call} {lock : Lock} (hlock : call.lock? = some lock) :
    Opens lock c (Client.perform trouble call c).1 (Client.perform trouble call c).2 ∧
      (Client.perform trouble call c).2.Accounted := by
  cases call with
  | openBlock l =>
    obtain rfl : Lock.shared = lock := Option.some.inj hlock
    exact hc.openBlock l (fun _ => rfl) (fun _ => rfl) fun b b' s hs => by simp at hs
  | openStream l length =>
    obtain rfl : Lock.shared = lock := Option.some.inj hlock
    refine hc.openBlock l (fun _ => rfl) (fun _ => rfl) ?_
    intro b b' s hs
    obtain ⟨-, rfl⟩ := Asset.stream.inj hs
    exact ⟨fun _ => rfl, rfl⟩
  | openFile path mode lock' =>
    obtain rfl : lock' = lock := Option.some.inj hlock
    exact hc.openFile path mode lock'
  | use i u => simp [Call.lock?] at hlock

/-- Every call keeps the book right. -/
theorem Accounted.perform (hc : c.Accounted) (trouble : LocalReader → Site → Option Failure)
    (call : Call) : (act (Client.perform trouble) call c).after.Accounted := by
  cases call with
  | use i u =>
    show (Client.perform trouble (.use i u) c).2.Accounted
    cases hi : c.held[i]? with
    | none =>
      rw [perform_use_none hi]
      exact hc
    | some h =>
      obtain ⟨front, back, hheld, hset⟩ := exists_split hi
      rw [perform_use hi, hset]
      exact hc.used trouble hheld u
  | openBlock | openStream | openFile => exact (hc.opens trouble rfl).2

/-- Every call goes by the book. -/
theorem Accounted.orderly (hc : c.Accounted) (trouble : LocalReader → Site → Option Failure)
    (call : Call) : Orderly (act (Client.perform trouble) call c) where
  opens lock hlock := (hc.opens trouble hlock).1
  uses i u hcall hopen := by
    obtain rfl : call = .use i u := hcall
    show (Client.perform trouble (.use i u) c).2.site.files.handles = c.site.files.handles
    cases hi : c.held[i]? with
    | none => rw [perform_use_none hi]
    | some h =>
      rw [perform_use hi]
      exact congrArg Store.handles (Asset.files_use trouble (hopen h hi) c.site)
  closes i u h hcall hi hclose := by
    obtain rfl : call = .use i u := hcall
    have hafter := hc.perform trouble (.use i u)
    obtain ⟨front, back, -, hset⟩ := exists_split (show c.held[i]? = some h from hi)
    have hperform : (act (Client.perform trouble) (.use i u) c).after =
        { site := (h.asset.use trouble u c.site).2.2
          held := front ++ h.used trouble u c.site :: back } := by
      rw [← hset]
      exact perform_use hi
    rw [hperform] at hafter ⊢
    have hclosed : (h.used trouble u c.site).isClosed = true := by
      show (h.isClosed || h.asset.closedBy u) = true
      rw [hclose, Bool.or_true]
    have hgone := hafter.not_isOpen rfl hclosed
    rwa [show (h.used trouble u c.site).asset.ticket = h.asset.ticket from
      h.asset.ticket_use trouble u c.site] at hgone
  balanced := (hc.perform trouble call).balanced

/-- **Locks go by the book.**  A client starts where no file is open and makes any calls in any
order, with readers that fail to close as they like.  Then every call goes by the book: what fails
to open leaves nothing behind, what is done with an open thing changes no lock, what is closed gives
its lock up even if it does not end well; and after every call the locks on the files are those of
the open entries, one for each. -/
theorem orderly_run (trouble : LocalReader → Site → Option Failure) {w : Site}
    (hw : w.files.handles = []) (calls : List Call) :
    ∀ a ∈ acts (perform trouble) calls { site := w }, Orderly a := by
  have hstart : Accounted { site := w } := by
    refine ⟨?_, List.nodup_nil, ?_, ?_⟩
    · show w.files.handles.Perm []
      rw [hw]
    · intro h hh
      exact absurd hh List.not_mem_nil
    · intro h hh
      exact absurd hh List.not_mem_nil
  exact forall_mem_acts
    (fun call c hc => ⟨hc.orderly trouble call, hc.perform trouble call⟩) hstart

/-- A file of five bytes called `b`. -/
def cabinet : Site where
  files := { nodes := #[.directory 0 [([98], 1)], .file [1, 2, 3, 4, 5]] }

/-- No reader can be closed. -/
def stuck : LocalReader → Site → Option Failure := fun _ _ => some (.misuse .closedStream)

/-- A client that reads a stream over the file, opens the file as a block as well, and closes both,
the block last.  It asks for an exclusive lock in between and after that. -/
def errands : List Call :=
  [.openStream (.stored {} 7 2 [98]) 5, .use 0 (.call .readByte),
    .openFile [98] .read .exclusive, .openBlock (.stored {} 7 2 [98]),
    .openBlock (.stored {} 7 0 [98]), .use 0 (.call .close), .openFile [98] .read .exclusive,
    .use 1 .close, .openFile [98] .write .exclusive]

/-- The stream cannot be closed in good order; of the two locks on the file it gives up one. -/
theorem orderly_run_errands :
    cabinet.files.handles = [] ∧
      (acts (perform stuck) errands { site := cabinet }).map Act.result =
        [true, true, false, true, false, false, false, true, true] ∧
      ∃ a ∈ acts (perform stuck) errands { site := cabinet },
        a.result = false ∧ a.before.site.files.handles.length = 2 ∧
          a.after.site.files.handles.length = 1 ∧ Orderly a := by
  refine ⟨rfl, rfl, _, List.getElem_mem (n := 5) (by decide), rfl, rfl, rfl, ?_⟩
  exact orderly_run stuck rfl errands _ (List.getElem_mem _)

end Client
end BlockAccess

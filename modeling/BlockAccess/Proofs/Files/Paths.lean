import BlockAccess.Files.Store

/-!
# Where paths lead

A store may get new names for new nodes, and files may get other contents.  As long as no name is
taken away or given to another node, a path that leads to a file goes on doing so (`Extends.find`).

A path is followed in two ways: to the node that it leads to, and to the spot for a file.  For files
that are there the two agree (`Store.spot_eq_taken_iff`).
-/

namespace BlockAccess

/-- A text with something else than the mark has a part that is not empty. -/
theorem Text.exists_mem_splitOn {c x : UInt8} {t : Text} (hx : x ∈ t) (hne : x ≠ c) :
    ∃ p ∈ Text.splitOn c t, p.isEmpty = false := by
  induction t with
  | nil => exact absurd hx List.not_mem_nil
  | cons y t ih =>
    rw [Text.splitOn]
    cases hparts : Text.splitOn c t with
    | nil => exact ⟨[y], .head _, rfl⟩
    | cons p ps =>
      by_cases hy : y = c
      · rcases List.mem_cons.1 hx with rfl | hx
        · exact absurd hy hne
        obtain ⟨q, hq, hfull⟩ := ih hx
        rw [hparts] at hq
        refine ⟨q, ?_, hfull⟩
        dsimp only
        rw [if_pos hy]
        exact .tail _ hq
      · refine ⟨y :: p, ?_, rfl⟩
        dsimp only
        rw [if_neg hy]
        exact .head _

namespace Files.Store

variable {s t u : Store}

/-- Names lead where they led, and files are still files. -/
structure Extends (s t : Store) : Prop where
  enter : ∀ {n name m}, s.enter n name = .ok m → t.enter n name = .ok m
  file : ∀ {n b}, s.node? n = some (.file b) → ∃ b', t.node? n = some (.file b')

theorem Extends.trans (h : s.Extends t) (h' : t.Extends u) : s.Extends u where
  enter hm := h'.enter (h.enter hm)
  file hb := by
    obtain ⟨b', hb'⟩ := h.file hb
    exact h'.file hb'

theorem extends_of_nodes (h : t.nodes = s.nodes) : s.Extends t where
  enter {n name m} hm := by
    rw [Store.enter, node?, h]
    exact hm
  file {n b} hb := ⟨b, by rw [node?, h]; exact hb⟩

theorem Extends.follow (h : s.Extends t) {n m : Nat} {names : List Text}
    (hm : s.follow n names = .ok m) : t.follow n names = .ok m := by
  induction names generalizing n with
  | nil => exact hm
  | cons name names ih =>
    rw [Store.follow] at hm ⊢
    split at hm
    · simp at hm
    next k hk =>
    rw [h.enter hk]
    exact ih hm

theorem Extends.find (h : s.Extends t) {path : Text} {n : Nat} (hn : s.find path = .ok n) :
    t.find path = .ok n := by
  unfold Store.find at hn ⊢
  split at hn
  · simp at hn
  · exact h.follow hn

theorem contents?_eq_some {path : Text} {S : Bytes} (h : s.contents? path = some S) :
    ∃ n, s.find path = .ok n ∧ s.node? n = some (.file S) := by
  unfold contents? at h
  split at h
  · simp at h
  next n hfind =>
  split at h
  · next b hnode => exact ⟨n, hfind, Option.some.inj h ▸ hnode⟩
  · simp at h

theorem contents?_eq {path : Text} {n : Nat} {S : Bytes} (hfind : s.find path = .ok n)
    (hnode : s.node? n = some (.file S)) : s.contents? path = some S := by
  unfold contents?
  rw [hfind]
  dsimp only
  rw [hnode]

/-! ## The same nodes -/

theorem follow_of_nodes (h : t.nodes = s.nodes) (n : Nat) (names : List Text) :
    t.follow n names = s.follow n names := by
  have henter (n : Nat) (name : Text) : t.enter n name = s.enter n name := by
    rw [enter, enter, node?, node?, h]
  induction names generalizing n with
  | nil => rfl
  | cons name names ih =>
    rw [follow, follow, henter]
    cases s.enter n name with
    | error r => rfl
    | ok m => exact ih m

theorem find_of_nodes (h : t.nodes = s.nodes) (path : Text) : t.find path = s.find path := by
  unfold find
  cases route path with
  | error r => rfl
  | ok r => exact follow_of_nodes h _ _

theorem contents?_of_nodes (h : t.nodes = s.nodes) (path : Text) :
    t.contents? path = s.contents? path := by
  have hnode (n : Nat) : t.node? n = s.node? n := by rw [node?, node?, h]
  unfold contents?
  rw [find_of_nodes h]
  simp only [hnode]

theorem find_close (s : Store) (ticket : Nat) (path : Text) :
    (s.close ticket).find path = s.find path :=
  find_of_nodes (s := s) (t := s.close ticket) rfl path

theorem contents?_close (s : Store) (ticket : Nat) (path : Text) :
    (s.close ticket).contents? path = s.contents? path :=
  contents?_of_nodes (s := s) (t := s.close ticket) rfl path

/-! ## New nodes and new contents -/

theorem node?_create (s : Store) (d : Nat) (name : Text) (node : Node) (n : Nat) :
    (s.create d name node).node? n =
      if n = s.nodes.size then some node
      else if n = d then (s.node? n).map (Node.bind name s.nodes.size) else s.node? n := by
  simp only [create, node?, Array.getElem?_push, Array.size_modify, Array.getElem?_modify]
  split
  · rfl
  · by_cases h : d = n
    · subst h
      simp
    · simp [h, Ne.symm h]

/-- A file among the nodes is not touched by a new node. -/
theorem node?_create_file {d n : Nat} {name : Text} {node : Node} {b : Bytes}
    (h : s.node? n = some (.file b)) : (s.create d name node).node? n = some (.file b) := by
  have hlt : n < s.nodes.size := by
    rw [node?] at h
    exact (Array.getElem?_eq_some_iff.1 h).1
  rw [node?_create, if_neg (Nat.ne_of_lt hlt), h]
  split <;> rfl

theorem extends_create {d : Nat} {name : Text} (hfree : s.enter d name = .error .notFound)
    (node : Node) : s.Extends (s.create d name node) where
  enter {n name' m} hm := by
    unfold Store.enter at hm
    split at hm
    · next above entries hnode =>
      have hlt : n < s.nodes.size := by
        rw [node?] at hnode
        exact (Array.getElem?_eq_some_iff.1 hnode).1
      unfold Store.enter
      rw [node?_create, if_neg (Nat.ne_of_lt hlt), hnode]
      by_cases hd : n = d
      · -- the directory that has the new name: that name led nowhere before
        subst hd
        rw [if_pos rfl]
        unfold Store.enter at hfree
        rw [hnode] at hfree
        dsimp only at hfree
        by_cases hname : name' = name
        · subst hname
          rw [hfree] at hm
          simp at hm
        · have hlookup : ((name, s.nodes.size) :: entries).lookup name' = entries.lookup name' := by
            rw [List.lookup_cons, beq_false_of_ne hname]
          simp only [Option.map_some, Node.bind, hlookup]
          exact hm
      · rw [if_neg hd]
        exact hm
    · simp at hm
    · simp at hm
  file {n b} hb := ⟨b, node?_create_file hb⟩

theorem node?_refill (s : Store) (k : Nat) (c : Bytes) {n : Nat} (hn : n ≠ k) :
    (s.refill k c).node? n = s.node? n := by
  unfold refill
  split
  · simp only [node?, Array.getElem?_setIfInBounds, Ne.symm hn, if_false]
  · rfl

theorem node?_refill_self {k : Nat} {b c : Bytes} (h : s.node? k = some (.file b)) :
    (s.refill k c).node? k = some (.file c) := by
  have hlt : k < s.nodes.size := by
    rw [node?] at h
    exact (Array.getElem?_eq_some_iff.1 h).1
  unfold refill
  rw [h]
  simp [node?, hlt]

theorem refill_eq_self {k : Nat} {c : Bytes} (h : ∀ b, s.node? k ≠ some (.file b)) :
    s.refill k c = s := by
  unfold refill
  split
  · next b hb => exact absurd hb (h b)
  · rfl

theorem enter_refill (s : Store) (k : Nat) (c : Bytes) (n : Nat) (name : Text) :
    (s.refill k c).enter n name = s.enter n name := by
  by_cases hk : ∃ b, s.node? k = some (.file b)
  · obtain ⟨b, hb⟩ := hk
    unfold Store.enter
    by_cases hn : n = k
    · rw [hn, node?_refill_self hb, hb]
    · rw [node?_refill s k c hn]
  · rw [refill_eq_self fun b hb => hk ⟨b, hb⟩]

theorem extends_refill (s : Store) (k : Nat) (c : Bytes) : s.Extends (s.refill k c) where
  enter hm := (enter_refill s k c ..).trans hm
  file {n b} hb := by
    by_cases hn : n = k
    · rw [hn] at hb ⊢
      exact ⟨c, node?_refill_self hb⟩
    · exact ⟨b, (node?_refill s k c hn).trans hb⟩

/-! ## Where routes end -/

theorem follow_concat (s : Store) (n : Nat) (names : List Text) (name : Text) :
    s.follow n (names ++ [name]) =
      match s.follow n names with
      | .error r => .error r
      | .ok m => s.enter m name := by
  induction names generalizing n with
  | nil =>
    simp only [List.nil_append, Store.follow]
    cases s.enter n name <;> rfl
  | cons first names ih =>
    simp only [List.cons_append, Store.follow]
    cases s.enter n first with
    | error r => rfl
    | ok m => exact ih m

/-- A free spot is a name that leads nowhere. -/
theorem enter_of_spot_free {path name : Text} {d : Nat} (h : s.spot path = .ok (.free d name)) :
    s.enter d name = .error .notFound := by
  unfold spot at h
  split at h
  · simp at h
  next r _ =>
  split at h
  · split at h <;> simp at h
  unfold locate at h
  split at h
  · simp at h
  next d' _ =>
  split at h
  · simp at h
  · next hfree =>
    simp only [Except.ok.injEq, Spot.free.injEq] at h
    obtain ⟨rfl, rfl⟩ := h
    exact hfree
  · simp at h

/-- A path that does not ask for a directory has a last name. -/
theorem names_ne_nil {path : Text} {r : Route} (h : route path = .ok r)
    (hplain : ¬r.asksDirectory = true) : r.names ≠ [] := by
  unfold route at h
  dsimp only at h
  split at h
  · simp at h
  next hfull =>
  split at h
  · simp at h
  obtain rfl := Except.ok.inj h
  have hne : Text.untilNul path ≠ [] := by simpa using hfull
  have hlast : (Text.untilNul path).getLast hne ≠ 47 := by
    intro h47
    refine hplain ?_
    show ((Text.untilNul path).getLast? == some 47) = true
    rw [List.getLast?_eq_some_getLast hne, h47]
    rfl
  obtain ⟨p, hp, hfull⟩ := Text.exists_mem_splitOn (List.getLast_mem hne) hlast
  show (Text.splitOn 47 (Text.untilNul path)).filter (!·.isEmpty) ≠ []
  exact List.ne_nil_of_mem (List.mem_filter.2 ⟨hp, by rw [hfull]; rfl⟩)

/-- A path ends at a file exactly if it leads there. -/
theorem spot_eq_taken_iff {path : Text} {n : Nat} {b : Bytes} (hfile : s.node? n = some (.file b)) :
    s.spot path = .ok (.taken n) ↔ s.find path = .ok n := by
  unfold spot Store.find
  cases hroute : route path with
  | error r => simp
  | ok r =>
    dsimp only
    by_cases hasks : r.asksDirectory = true
    · -- a file has no name for itself
      rw [if_pos hasks, if_pos hasks, s.follow_concat r.start r.names]
      constructor
      · intro h
        split at h <;> simp at h
      · intro h
        split at h
        · simp at h
        next m _ =>
        unfold Store.enter at h
        split at h
        · next hnode =>
          have hm : m = n := by
            rw [if_neg (by decide), if_pos rfl] at h
            exact Except.ok.inj h
          rw [hm, hfile] at hnode
          simp at hnode
        · simp at h
        · simp at h
    · rw [if_neg hasks, if_neg hasks]
      rcases List.eq_nil_or_concat r.names with hnil | ⟨front, last, hnames⟩
      · exact absurd hnil (names_ne_nil hroute hasks)
      rw [List.concat_eq_append] at hnames
      rw [hnames, follow_concat, locate, List.dropLast_concat, List.getLast?_concat]
      cases s.follow r.start front with
      | error r => simp
      | ok m =>
        dsimp only [Option.getD_some]
        cases s.enter m last with
        | error r => cases r <;> simp
        | ok k => simp

end Files.Store

end BlockAccess

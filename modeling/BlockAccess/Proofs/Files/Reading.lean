import BlockAccess.Files.ReadStream

/-!
# What an open file delivers

An open file delivers the bytes that it fetched before and then those that its node has by now
(`ReadStream.Has`).  As long as a read does not ask for more than that, it gives exactly what it is
asked for and leaves the rest (`ReadStream.Has.read`); in which pieces bytes are fetched makes no
difference then.

If the node was emptied, what was fetched before is all that there is (`ReadStream.read_emptied`).
In no case are more bytes given than were asked for (`ReadStream.length_read_le`).
-/

namespace BlockAccess.Files.ReadStream

variable {r : ReadStream} {s : Store} {contents t : Bytes} {n : Nat}

/-! ## Fetching -/

/-- Enough is fetched, unless the end of the file was found before. -/
theorem le_fetchSize (hended : r.ended = false) (n : Nat) : n ≤ r.fetchSize n := by
  have hrest : n % pieceSize < pieceSize := Nat.mod_lt _ (by decide)
  have hwhole : n % pieceSize ≤ n := Nat.mod_le ..
  simp only [fetchSize, hended, Bool.false_or, beq_iff_eq]
  split <;> omega

theorem take_fetch (hended : r.ended = false) (contents : Bytes) (n : Nat) :
    (r.fetch contents n).take n = (contents.drop r.place.offset).take n := by
  rw [fetch, Place.rest_eq, List.take_take, Nat.min_eq_left (le_fetchSize hended n)]

/-- What is fetched is followed by what is behind the place where fetching goes on. -/
theorem fetch_append (r : ReadStream) (contents : Bytes) (n : Nat) :
    r.fetch contents n ++ contents.drop (r.place.offset + (r.fetch contents n).length) =
      contents.drop r.place.offset := by
  rw [← List.drop_drop, fetch, Place.rest_eq, List.length_take]
  rw [← List.drop_eq_drop_min, List.take_append_drop]

theorem fetch_nil (r : ReadStream) (n : Nat) : r.fetch [] n = [] := by
  rw [fetch, Place.rest_eq, List.drop_nil, List.take_nil]

/-! ## Reading a file -/

/-- As many bytes as there are can be read, and the others are left. -/
theorem readFile_of_le (hended : r.ended = false)
    (hn : n ≤ (r.ahead ++ contents.drop r.place.offset).length) :
    (r.readFile contents n).1 = (r.ahead ++ contents.drop r.place.offset).take n ∧
      (r.readFile contents n).2.ended = false ∧
      (r.readFile contents n).2.ahead ++ contents.drop (r.readFile contents n).2.place.offset =
        (r.ahead ++ contents.drop r.place.offset).drop n := by
  have htake := take_fetch hended contents (n - r.ahead.length)
  have hfetched := r.fetch_append contents (n - r.ahead.length)
  have henough : n - r.ahead.length ≤ (r.fetch contents (n - r.ahead.length)).length := by
    have hlength := congrArg List.length htake
    rw [List.length_take, List.length_take] at hlength
    rw [List.length_append] at hn
    omega
  refine ⟨?_, ?_, ?_⟩
  · show (r.ahead ++ r.fetch contents (n - r.ahead.length)).take n = _
    rw [List.take_append, List.take_append, htake]
  · show (r.ended || decide (_ < n - r.ahead.length)) = false
    rw [hended, Bool.false_or, decide_eq_false (Nat.not_lt.2 henough)]
  · show (r.ahead ++ r.fetch contents (n - r.ahead.length)).drop n ++
      contents.drop (r.place.offset + (r.fetch contents (n - r.ahead.length)).length) = _
    have hreach : n ≤ (r.ahead ++ r.fetch contents (n - r.ahead.length)).length := by
      rw [List.length_append]
      omega
    rw [← hfetched, ← List.append_assoc, List.drop_append_of_le_length hreach]

/-- Of a file that was emptied there is what was fetched before. -/
theorem readFile_nil (r : ReadStream) (n : Nat) :
    (r.readFile [] n).1 = r.ahead.take n ∧ (r.readFile [] n).2.ahead = r.ahead.drop n := by
  simp only [readFile, fetch_nil, List.append_nil, and_self]

theorem length_readFile_le (r : ReadStream) (contents : Bytes) (n : Nat) :
    (r.readFile contents n).1.length ≤ n := List.length_take_le ..

/-! ## Reading what is open -/

/-- Reading goes on with the same node, and in the same manner. -/
theorem read_frame (r : ReadStream) (s : Store) (n : UInt64) :
    (r.read s n).2.2.node = r.node ∧ (r.read s n).2.2.short = r.short := by
  unfold read
  split <;> exact ⟨rfl, rfl⟩

/-- No more is read than was asked for. -/
theorem length_read_le (r : ReadStream) (s : Store) (n : UInt64) :
    (r.read s n).1.length ≤ r.asked n := by
  unfold read
  split
  · exact r.length_readFile_le _ _
  · dsimp only
    split
    · exact Nat.le_of_eq List.length_replicate
    · exact Nat.zero_le _
  · exact Nat.zero_le _
  · exact Nat.zero_le _

theorem asked_of_full (h : r.short = false) (n : UInt64) : r.asked n = n.toNat := by
  rw [asked, h, if_neg Bool.false_ne_true]

theorem asked_le (r : ReadStream) (n : UInt64) : r.asked n ≤ n.toNat := by
  unfold asked
  split
  · exact Nat.sub_le ..
  · exact Nat.le_refl _

theorem read_file (h : s.node? r.node = some (.file contents)) (n : UInt64) :
    r.read s n =
      ((r.readFile contents (r.asked n)).1, none, (r.readFile contents (r.asked n)).2) := by
  rw [read, h]

/-- An open file has these bytes to be read, in any amounts. -/
structure Has (r : ReadStream) (s : Store) (t : Bytes) : Prop where
  full : r.short = false
  ended : r.ended = false
  left : ∃ contents, s.node? r.node = some (.file contents) ∧
    t = r.ahead ++ contents.drop r.place.offset

/-- **Reading gives the front of what there is** and leaves the rest. -/
theorem Has.read (h : r.Has s t) {n : UInt64} (hn : n.toNat ≤ t.length) : ∃ r',
    r.read s n = (t.take n.toNat, none, r') ∧ r'.Has s (t.drop n.toNat) ∧ r'.node = r.node := by
  obtain ⟨contents, hnode, rfl⟩ := h.left
  obtain ⟨hbytes, hended, hrest⟩ := readFile_of_le h.ended hn
  rw [read_file hnode, asked_of_full h.full, hbytes]
  exact ⟨_, rfl, ⟨h.full, hended, contents, hnode, hrest.symm⟩, rfl⟩

/-- A file that was opened has its contents, from the place that it is moved to. -/
theorem has_moved {m : Nat} (h : s.node? m = some (.file contents)) (offset : UInt64) :
    (({ node := m } : ReadStream).moved offset).Has s (contents.drop offset.toNat) :=
  ⟨rfl, rfl, contents, h, rfl⟩

/-- A file that was opened has all of its contents. -/
theorem has_opened {m : Nat} (h : s.node? m = some (.file contents)) :
    ({ node := m } : ReadStream).Has s contents := ⟨rfl, rfl, contents, h, rfl⟩

/-- **Who reads a file that was emptied gets what was fetched before**, and no more. -/
theorem read_emptied (h : s.node? r.node = some (.file [])) (n : UInt64) :
    (r.read s n).1 = r.ahead.take (r.asked n) ∧ (r.read s n).2.1 = none ∧
      (r.read s n).2.2.ahead = r.ahead.drop (r.asked n) := by
  obtain ⟨hbytes, hahead⟩ := r.readFile_nil (r.asked n)
  rw [read_file h]
  exact ⟨hbytes, rfl, hahead⟩

/-! ## Reading on a state that keeps files -/

section

variable {W : Type} [Filed W] [Journaled W]

/-- A read that is not refused leaves the surroundings as they are. -/
theorem readNoted_of_read {w : W} {r' : ReadStream} {b : Bytes} {n : UInt64}
    (h : r.read (Filed.files w) n = (b, none, r')) : r.readNoted n w = (b, r', w) := by
  rw [readNoted, h]

/-- What is read, and what becomes of the stream, does not depend on whether it is noted. -/
theorem readNoted_eq_read (r : ReadStream) (n : UInt64) (w : W) :
    (r.readNoted n w).1 = (r.read (Filed.files w) n).1 ∧
      (r.readNoted n w).2.1 = (r.read (Filed.files w) n).2.2 := by
  unfold readNoted
  split
  · next h =>
    rw [h]
    exact ⟨rfl, rfl⟩
  · next h =>
    rw [h]
    exact ⟨rfl, rfl⟩

theorem length_readNoted_le (r : ReadStream) (n : UInt64) (w : W) :
    (r.readNoted n w).1.length ≤ r.asked n := by
  rw [(r.readNoted_eq_read n w).1]
  exact r.length_read_le _ n

/-- A file that falls short never gives all that is wanted. -/
theorem length_readNoted_lt (h : r.short = true) {n : UInt64} (hn : 0 < n.toNat) (w : W) :
    (r.readNoted n w).1.length < n.toNat := by
  have hlength := r.length_readNoted_le n w
  rw [asked, h, if_pos rfl] at hlength
  omega

end

end BlockAccess.Files.ReadStream

import BlockAccess.Command.Copy
import BlockAccess.Proofs.Source.Pinning
import BlockAccess.Proofs.Source.Short
import BlockAccess.Proofs.Stream.Interchange

/-!
# A copy of a local block is what was asked for

A whole block is copied piece by piece until its stream is at its end, a range of it by one read at
a position.  `Command.asked` says which bytes that should be, if any, and `Command.Ends` how copying
to a file ends: these bytes are written, or none are and it is told that something went wrong.

For a whole block the loop carries it.  What is still in front of the stream is what is still to be
written, so each piece goes from the one to the other, and nothing is left when the stream is at its
end (`copyPieces_of_ready`).

A file may fall short of what its length promises.  Of such a file no packet is ever had, so what is
copied without a failure is nothing, and it is only copied where nothing was asked for
(`copy_short`).  Together both cases say that no copy goes well that is not the one asked for
(`copy_sound`).
-/

namespace BlockAccess

open Files (Store)

/-! ## What is in front of a stream -/

namespace Stream

variable {W R : Type} {S : Bytes} {length : UInt64} {s s' : Stream R}

/-- What is in front of a stream are the bytes that a read takes and what is in front of it then. -/
theorem Within.range_split (hs : s.Within length) (hs' : s'.Within length) {k : Nat}
    (hk : s'.position.toNat = s.position.toNat + k)
    (hle : s.position.toNat + k ≤ Cursor.finish S length.toNat) :
    range S s.position s.rest =
      (S.drop s.position.toNat).take k ++ range S s'.position s'.rest := by
  have hdeclared : Cursor.finish S length.toNat ≤ length.toNat := Nat.min_le_left ..
  have hfront : (range S s.position s.rest).take k = (S.drop s.position.toNat).take k := by
    rw [hs.range_eq, List.take_take, Nat.min_eq_left (by omega)]
  rw [hs.range_advance hs' hk, ← hfront, List.take_append_drop]

end Stream

/-! ## Writing -/

namespace Command

/-- Some bytes were added to what was written. -/
structure Output.Wrote (o : Output) (b : Bytes) (o' : Output) : Prop where
  target_eq : o'.target = o.target
  written_eq : o'.written = o.written ++ b

namespace Output

variable {o o' o'' : Output} {a b : Bytes} {t : Nat}

theorem Wrote.nothing (o : Output) : o.Wrote [] o := ⟨rfl, (List.append_nil _).symm⟩

theorem Wrote.trans (h : o.Wrote a o') (h' : o'.Wrote b o'') : o.Wrote (a ++ b) o'' where
  target_eq := h'.target_eq.trans h.target_eq
  written_eq := by rw [h'.written_eq, h.written_eq, List.append_assoc]

/-- A file takes all that is written to it. -/
theorem write_file (ho : o.target = .file t) (b : Bytes) :
    ∃ o', o.write b = (true, o') ∧ o.Wrote b o' := by
  refine ⟨{ o with pieces := b :: o.pieces }, ?_, rfl, ?_⟩
  · unfold write
    rw [ho]
  · simp only [written, List.reverse_cons, List.flatten_append, List.flatten_singleton]

end Output

/-- The bytes that are asked for, of a block and a declared length, and none if there is nothing to
be read. -/
def asked (S : Bytes) (length : UInt64) : Option (UInt64 × UInt64) → Option Bytes
  | none => some (S.take length.toNat)
  | some (offset, count) =>
    if count = 0 ∨ offset.toNat < min length.toNat S.length then some (range S offset count)
    else none

/-- How copying to a file ends: what was asked for is written, or nothing was and this is told. -/
inductive Ends (o : Output) : Option Bytes → Except Failure Bool → Output → Prop
  | copied {b : Bytes} {o' : Output} (h : o.Wrote b o') : Ends o (some b) (.ok true) o'
  | refused {x : Except Failure Bool} (hx : x ≠ .ok true) : Ends o none x o

/-! ## Copying from a source that delivers -/

section

variable {W R : Type} [Journaled W] {src src' : Source W R} {S : Bytes} {limit : Nat}
  {c : src'.Conforming S} {length : UInt64} {t : Nat}

/-- Copying to the end writes what is in front of the stream. -/
theorem copyPieces_of_ready (h : src.AgreeUpTo src' limit c.Fair) (sup : src.Supply)
    (hlimit : Cursor.finish S length.toNat ≤ limit) (total : Nat) {o : Output}
    (ho : o.target = .file t) {s : Stream R} {w : W} (hs : Stream.Ready c length (s, w))
    (hposition : s.position.toNat ≤ Cursor.finish S length.toNat) :
    ∃ n o' s' w', copyPieces src sup total o s w = (.ok (some n), o', s', w') ∧
      o.Wrote (range S s.position s.rest) o' := by
  have hsize : 0 < pieceSize.toNat := by decide
  have hagree := Stream.fetch_agree h (Nat.le_trans hposition hlimit) (c.fair_note _ hs.fair)
    pieceSize
  obtain ⟨b, s₁, w₁, hfetch, hreads, hs₁⟩ := hs.fetch hsize
  rw [← hagree] at hfetch
  rw [copyPieces]
  split
  · next f s₂ w₂ hfailed =>
    rw [hfetch] at hfailed
    simp at hfailed
  · next s₂ w₂ hend =>
    rw [hfetch] at hend
    simp only [Prod.mk.injEq, Except.ok.injEq] at hend
    obtain ⟨rfl, rfl, rfl⟩ := hend
    generalize Stream.cursorOf s₁ = k at hreads
    cases hreads with
    | ended hn hfinish =>
      rw [hs.toWithin.range_eq_nil.2 hfinish]
      exact ⟨_, o, _, _, rfl, .nothing o⟩
  · next b' s₂ w₂ hpiece =>
    rw [hfetch] at hpiece
    simp only [Prod.mk.injEq, Except.ok.injEq] at hpiece
    obtain ⟨rfl, rfl, rfl⟩ := hpiece
    generalize hk : Stream.cursorOf s₁ = k at hreads
    cases hreads with
    | nothing hn => exact absurd hn (by decide)
    | bytes k hpos hn hfinish =>
      have hmoved : s₁.position.toNat = s.position.toNat + k := congrArg Cursor.position hk
      have hplace : s.position.toNat + k ≤ Cursor.finish S length.toNat := hfinish
      obtain ⟨o₁, hwrite, hwrote⟩ :=
        Output.write_file ho ((S.drop (Stream.cursorOf s).position).take k)
      rw [hwrite]
      dsimp only
      obtain ⟨n, o', s', w', hcopy, hrest⟩ :=
        copyPieces_of_ready h sup hlimit _ (hwrote.target_eq.trans ho) hs₁ (by omega)
      refine ⟨n, o', s', w', hcopy, ?_⟩
      rw [hs.toWithin.range_split hs₁.toWithin hmoved hplace]
      exact hwrote.trans hrest
termination_by Cursor.finish S length.toNat - s.position.toNat
decreasing_by omega

end

/-! ## Copying a local block -/

section

variable {b : LocalBlock} {S : Bytes} {limit : Nat} {block length : UInt64} {o : Output} {t : Nat}
  {w : Site}

/-- So a copy ends as its copying part does. -/
theorem copy_local (b : LocalBlock) (range : Option (UInt64 × UInt64)) (o : Output)
    (s : Stream LocalReader) (w : Site) :
    (copy b.source b.supply range o s w).1 = (copyPart b.source b.supply range o s w).1 ∧
      (copy b.source b.supply range o s w).2.1 =
        (copyPart b.source b.supply range o s w).2.1 := by
  unfold copy
  split
  · next h => rw [h]; exact ⟨rfl, rfl⟩
  next success o₁ s₁ w₁ h =>
  rw [h]
  split
  · next f s₂ w₂ hfailed =>
    have hfine := b.close_isOk s₁ w₁
    rw [hfailed] at hfine
    simp at hfine
  · exact ⟨rfl, rfl⟩

/-- A read within the declared length, at a place that the file can be moved to. -/
theorem readAt_of_le (hsize : b.packetSize ≠ 0) (hlength : b.length.toNat = S.length)
    (hw : b.Kept S limit w) {s : Stream LocalReader} (hopen : s.closed = false)
    {offset count : UInt64} (hcount : count ≠ 0)
    (hwithin : ¬(offset.toInt64 < 0 || s.length ≤ offset.toInt64.toUInt64) = true)
    (hle : offset.toNat ≤ limit) :
    ∃ w', s.readAt b.source offset.toInt64 count w =
      (.ok (Stream.countOf (range S offset count)), range S offset count, w') := by
  have hto : offset.toInt64.toUInt64 = offset := UInt64.toUInt64_toInt64 offset
  have hagree := Stream.readAt_agree_of_le (s := s) (Stream.agree_ideal hsize hlength) hw
    (hto.symm ▸ hle) count
  obtain ⟨w', hideal, -⟩ := Stream.readAt_of_lt (LocalBlock.conforming hsize hlength limit) hopen
    hw hcount hwithin
  rw [hto] at hideal
  exact ⟨w', hagree.trans hideal⟩

/-- What a read of a range obtains from a file that is all there: the bytes of the range if it
begins within the block and its declared length, and otherwise nothing. -/
theorem readAt_kept (hsize : b.packetSize ≠ 0) (hlength : b.length.toNat = S.length)
    (hS : S.length ≤ limit) (hlimit : limit < Offset.signedLimit) (hw : b.Kept S limit w)
    {s : Stream LocalReader} (hopen : s.closed = false) (offset : UInt64) {count : UInt64}
    (hcount : count ≠ 0) :
    offset.toNat < min s.length.toNat S.length ∧
        (∃ w', s.readAt b.source offset.toInt64 count w =
          (.ok (some (range S offset count).length), range S offset count, w')) ∨
      ¬offset.toNat < min s.length.toNat S.length ∧
        ∃ x w', s.readAt b.source offset.toInt64 count w = (x, [], w') ∧ ∀ n, x ≠ .ok (some n) := by
  have hto : offset.toInt64.toUInt64 = offset := UInt64.toUInt64_toInt64 offset
  have hpast_iff : (offset.toInt64 < 0 || s.length ≤ offset.toInt64.toUInt64) = true ↔
      offset.toInt64.toInt < 0 ∨ s.length.toNat ≤ offset.toNat := by
    rw [Bool.or_eq_true, decide_eq_true_eq, decide_eq_true_eq, hto, Offset.neg_iff,
      UInt64.le_iff_toNat_le]
  by_cases hlt : offset.toNat < min s.length.toNat S.length
  · have hvalue : offset.toInt64.toInt = offset.toNat := Offset.toInt_toInt64 (by omega)
    have hwithin : ¬(offset.toInt64 < 0 || s.length ≤ offset.toInt64.toUInt64) = true := by
      rw [hpast_iff]
      omega
    obtain ⟨w', hread⟩ := readAt_of_le hsize hlength hw hopen hcount hwithin (by omega)
    have hne : (range S offset count).isEmpty = false := by
      have hpositive : count.toNat ≠ 0 := fun h => hcount (UInt64.toNat_inj.1 h)
      rw [List.isEmpty_eq_false_iff, ← List.length_pos_iff, range, List.length_take,
        List.length_drop]
      omega
    rw [Stream.countOf, hne] at hread
    exact .inl ⟨hlt, w', hread⟩
  refine .inr ⟨hlt, ?_⟩
  by_cases hpast : (offset.toInt64 < 0 || s.length ≤ offset.toInt64.toUInt64) = true
  · -- the place is before the start or behind the declared length
    refine ⟨.ok none, w, ?_, fun n => by simp⟩
    unfold Stream.readAt
    rw [if_neg (by simp [hopen]), if_neg hcount, if_pos hpast]
  by_cases hfar : limit < offset.toNat
  · -- the file cannot be moved there
    obtain ⟨w', hcreate⟩ := LocalBlock.create_of_lt hw hfar count
    have hread : s.readAt b.source offset.toInt64 count w =
        (.error (.transport (.blockUnopened b.blockId b.path)), [], w') := by
      unfold Stream.readAt
      rw [if_neg (by simp [hopen]), if_neg hcount, if_neg hpast, hto,
        show b.source.create offset count w = _ from hcreate]
    exact ⟨_, w', hread, fun n => by simp⟩
  · -- the block ends before it
    obtain ⟨w', hread⟩ := readAt_of_le hsize hlength hw hopen hcount hpast (Nat.not_lt.1 hfar)
    rw [hpast_iff] at hpast
    have hbehind : S.length ≤ offset.toNat := by omega
    rw [range, List.drop_eq_nil_of_le hbehind, List.take_nil] at hread
    exact ⟨_, w', hread, fun n => by simp [Stream.countOf]⟩

/-- A range of no bytes is copied without asking the block. -/
theorem copyRange_zero (ho : o.target = .file t) {s : Stream LocalReader} (hopen : s.closed = false)
    (S : Bytes) (src : Source Site LocalReader) (offset : UInt64) (w : Site) :
    Ends o (asked S s.length (some (offset, 0))) (copyRange src offset 0 o s w).1
      (copyRange src offset 0 o s w).2.1 := by
  have hread : s.readAt src offset.toInt64 0 w = (.ok (some 0), [], w) := by
    unfold Stream.readAt
    rw [if_neg (by simp [hopen]), if_pos rfl]
  have hasked : asked S s.length (some (offset, 0)) = some [] := by
    rw [asked, if_pos (.inl rfl), range, UInt64.toNat_zero, List.take_zero]
  obtain ⟨o', hwrite, hwrote⟩ := Output.write_file ho []
  unfold copyRange
  rw [hread, hasked]
  dsimp only
  rw [hwrite]
  exact .copied hwrote

theorem copyRange_kept (hsize : b.packetSize ≠ 0) (hlength : b.length.toNat = S.length)
    (hS : S.length ≤ limit) (hlimit : limit < Offset.signedLimit) (hw : b.Kept S limit w)
    (ho : o.target = .file t) {s : Stream LocalReader} (hopen : s.closed = false)
    (offset count : UInt64) :
    Ends o (asked S s.length (some (offset, count))) (copyRange b.source offset count o s w).1
      (copyRange b.source offset count o s w).2.1 := by
  by_cases hzero : count = 0
  · rw [hzero]
    exact copyRange_zero ho hopen S b.source offset w
  unfold copyRange
  rcases readAt_kept hsize hlength hS hlimit hw hopen offset hzero with
    ⟨hlt, w', hread⟩ | ⟨hlt, x, w', hread, hx⟩
  · obtain ⟨o', hwrite, hwrote⟩ := Output.write_file ho (range S offset count)
    rw [asked, if_pos (.inr hlt), hread]
    dsimp only
    rw [hwrite]
    exact .copied hwrote
  · rw [asked, if_neg fun h => h.elim hzero hlt, hread]
    cases x with
    | error f => exact .refused (by simp)
    | ok n =>
      cases n with
      | none => exact .refused (by simp)
      | some n => exact absurd rfl (hx n)

/-- **A block whose file is all there is copied as it was asked for.** -/
theorem copy_kept (hsize : b.packetSize ≠ 0) (hlength : b.length.toNat = S.length)
    (hS : S.length ≤ limit) (hlimit : limit < Offset.signedLimit) (hw : b.Kept S limit w)
    (ho : o.target = .file t) (range : Option (UInt64 × UInt64)) :
    Ends o (asked S length range)
      (copy b.source b.supply range o (Stream.start block length) w).1
      (copy b.source b.supply range o (Stream.start block length) w).2.1 := by
  obtain ⟨hresult, houtput⟩ := copy_local b range o (Stream.start block length) w
  rw [hresult, houtput]
  cases range with
  | some r =>
    have hopen : (Stream.start (R := LocalReader) block length).closed = false := rfl
    exact copyRange_kept hsize hlength hS hlimit hw ho hopen r.1 r.2
  | none =>
    let c := LocalBlock.conforming hsize hlength limit
    have hready : Stream.Ready c length (Stream.start block length, w) :=
      Stream.ready_start c hw
    obtain ⟨n, o', s', w', hcopy, hwrote⟩ :=
      copyPieces_of_ready (Stream.agree_ideal hsize hlength) b.supply
        (Nat.le_trans (Nat.min_le_right ..) hS) 0 ho hready (Nat.zero_le _)
    have hfront : BlockAccess.range S (Stream.start (R := LocalReader) block length).position
        (Stream.start (R := LocalReader) block length).rest = S.take length.toNat := by
      rw [hready.toWithin.range_eq]
      rfl
    rw [hfront] at hwrote
    unfold copyPart copyBlock
    dsimp only
    rw [hcopy]
    exact .copied hwrote

end

/-! ## What copying does to the surroundings -/

section

variable {W R : Type} [Journaled W] {src : Source W R} {I : W → Prop}

theorem keeps_note (u : ∀ offset length, src.Upholds offset length fun _ _ w => I w)
    (n : Notice) {w : W} (hI : I w) : I (note n w) :=
  (u 0 0).note (r := none) (p := none) n hI

/-- What the operations of a source keep, copying to the end keeps. -/
theorem copyPieces_keeps (u : ∀ offset length, src.Upholds offset length fun _ _ w => I w)
    (sup : src.Supply) (total : Nat) (o : Output) (s : Stream R) (w : W) (hI : I w) :
    I (copyPieces src sup total o s w).2.2.2 := by
  fun_induction copyPieces src sup total o s w with
  | case1 total o s w f s' w' hfetch => exact (u s.position s.rest).fetch hI hfetch
  | case2 total o s w s' w' hfetch => exact (u s.position s.rest).fetch hI hfetch
  | case3 total o s w b s' w' hfetch o' hwrite =>
    exact keeps_note u _ ((u s.position s.rest).fetch hI hfetch)
  | case4 total o s w b s' w' hfetch o' hwrite ih =>
    exact ih ((u s.position s.rest).fetch hI hfetch)

theorem copyPart_keeps (u : ∀ offset length, src.Upholds offset length fun _ _ w => I w)
    (sup : src.Supply) (range : Option (UInt64 × UInt64)) (o : Output) (s : Stream R) (w : W)
    (hI : I w) : I (copyPart src sup range o s w).2.2.2 := by
  cases range with
  | none =>
    have hpieces := copyPieces_keeps u sup 0 o s w hI
    unfold copyPart copyBlock
    dsimp only
    split
    · next h => rwa [h] at hpieces
    · next h => rwa [h] at hpieces
    · next h =>
      rw [h] at hpieces
      exact keeps_note u _ hpieces
  | some r =>
    obtain ⟨offset, count⟩ := r
    have hread : I (s.readAt src offset.toInt64 count w).2.2 := (u _ _).readAt hI
    unfold copyPart copyRange
    dsimp only
    split
    · next h => rwa [h] at hread
    · next h =>
      rw [h] at hread
      exact keeps_note u _ hread
    · next h =>
      rw [h] at hread
      split
      · exact keeps_note u _ hread
      · exact keeps_note u _ hread

/-- Beyond that, copying shuts the source down at most. -/
theorem copy_keeps (u : ∀ offset length, src.Upholds offset length fun _ _ w => I w)
    (sup : src.Supply) (range : Option (UInt64 × UInt64)) (o : Output) (s : Stream R) (w : W)
    (hI : I w) : I (copy src sup range o s w).2.2 ∨
      ∃ w₁, I w₁ ∧ (copy src sup range o s w).2.2 = (src.shutDown w₁).2 := by
  have hpart := copyPart_keeps u sup range o s w hI
  have hclosing (s : Stream R) (w : W) (hI : I w) : I (s.close src w).2.2 ∨
      ∃ w₁, I w₁ ∧ (s.close src w).2.2 = (src.shutDown w₁).2 := by
    cases hclosed : s.closed with
    | false => exact .inr ((u 0 0).closing hclosed hI)
    | true =>
      rw [show s.close src w = (.ok (), s, w) by simp [Stream.close, hclosed]]
      exact .inl hI
  unfold copy
  split
  · next h =>
    rw [h] at hpart
    exact .inl hpart
  next success o' s' w' h =>
  rw [h] at hpart
  have hclose := hclosing s' w' hpart
  split
  · next hc => rwa [hc] at hclose
  · next hc => rwa [hc] at hclose

/-- Copying a local block leaves the files alone, or closes the handle that pins the block. -/
theorem files_copy (b : LocalBlock) (range : Option (UInt64 × UInt64)) (o : Output)
    (s : Stream LocalReader) (w : Site) :
    (copy b.source b.supply range o s w).2.2.files = w.files ∨
      (copy b.source b.supply range o s w).2.2.files = w.files.close b.pin := by
  have u (offset length : UInt64) :
      (b.source (W := Site)).Upholds offset length fun _ _ w' => w'.files = w.files := by
    rw [← b.troubled_none]
    exact b.upholds_files _ w.files offset length
  rcases copy_keeps u b.supply range o s w rfl with hfiles | ⟨w₁, hfiles, hshut⟩
  · exact .inl hfiles
  · rw [hshut, ← hfiles]
    exact .inr (b.files_shutDown w₁)

end

end Command

end BlockAccess

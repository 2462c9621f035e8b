import BlockAccess.Proofs.Settings.Overriding
import BlockAccess.Proofs.Source.Local
import BlockAccess.Proofs.Text.Cutting
import BlockAccess.Settings.Properties
import BlockAccess.Site

/-!
# Properties files say what keys are to be

A properties file is written line by line.  `Spelling` is a way to write an assignment of a value to
a key: white space may stand at four places, around the name and around the value.  `Idle` lines are
all the others: blank ones, comments, lines without an equals sign, and names that are no key's.  A
file is a list of such `Row`s with newlines between them, and perhaps one more at its end.

The proof goes by lines.  A newline between two texts separates what they do (`applyText_append`), a
spelling is read as the assignment that it is (`Spelling.ofText_toText`), an idle line does nothing
(`Idle.apply`), and so the rows of a file set the keys of its assignments one after the other
(`Row.applyText_written`).  If each key is set only once, their order makes no difference.
-/

namespace BlockAccess.Properties

open Files (Filed)
open Text (IsBlank IsTight isSpace trim trimLeft trimRight)

/-! ## Line by line -/

theorem applyText_of_notMem {t : Text} (h : 10 ∉ t) (s : Settings) :
    applyText t s = (Line.ofText t).apply s := by
  rw [applyText, lines, Text.splitOn_of_notMem h]
  rfl

/-- **A newline separates what is in front of it from what is behind it.** -/
theorem applyText_append (a b : Bytes) (s : Settings) :
    applyText (a ++ 10 :: b) s = applyText b (applyText a s) := by
  rw [applyText, lines, Text.splitOn_append, List.map_append, List.foldl_append]
  rfl

theorem applyText_nil (s : Settings) : applyText [] s = s := rfl

/-! ## Lines that do nothing -/

/-- A line is read at its first equals sign, unless it is a comment. -/
theorem ofText_of_split {name value : Text} (hname : 61 ∉ name)
    (hmark : ∀ c ∈ (trimLeft name).head?, ¬(c = 35 ∨ c = 33)) :
    Line.ofText (name ++ 61 :: value) =
      match Key.ofName? (trim name) with
      | none => .unknown (trim name)
      | some k => .assignment k (trim value) := by
  have htrim : trim (name ++ 61 :: value) = trimLeft name ++ 61 :: trimRight value :=
    Text.trim_append_cons (by decide)
  have hsplit : Text.splitFirst 61 (trimLeft name ++ 61 :: trimRight value) =
      some (trimLeft name, trimRight value) :=
    Text.splitFirst_append fun hmem => hname (Text.mem_of_mem_trimLeft hmem)
  unfold Line.ofText
  rw [htrim]
  cases hleft : trimLeft name ++ 61 :: trimRight value with
  | nil => simp at hleft
  | cons c r =>
    have hc : (c = 35 || c = 33) = false := by
      have hhead : (trimLeft name).head?.or (some 61) = some c := by
        rw [← List.head?_cons (a := 61) (l := trimRight value), ← List.head?_append, hleft,
          List.head?_cons]
      cases hname' : (trimLeft name).head? with
      | none =>
        rw [hname', Option.none_or, Option.some.injEq] at hhead
        rw [← hhead]
        decide
      | some d =>
        rw [hname', Option.some_or, Option.some.injEq] at hhead
        rw [← hhead]
        simpa using hmark d hname'
    rw [hleft] at hsplit
    cases hkey : Key.ofName? (trim name) <;>
      simp only [hc, Bool.false_eq_true, if_false, hsplit, Text.trim_trimLeft, Text.trim_trimRight,
        hkey]

/-- The lines that set no key. -/
inductive Idle : Text → Prop where
  | blank {t : Text} : IsBlank t → Idle t
  | comment {indent rest : Text} {mark : UInt8} : IsBlank indent → mark = 35 ∨ mark = 33 →
      Idle (indent ++ mark :: rest)
  | noAssignment {t : Text} : 61 ∉ t → Idle t
  | unknown {name value : Text} : 61 ∉ name → (∀ k : Key, k.name ≠ trim name) →
      Idle (name ++ 61 :: value)

theorem ofText_comment {indent rest : Text} {mark : UInt8} (hindent : IsBlank indent)
    (hmark : mark = 35 ∨ mark = 33) : Line.ofText (indent ++ mark :: rest) = .ignored := by
  have hspace : isSpace mark = false := by
    rcases hmark with rfl | rfl <;> decide
  unfold Line.ofText
  rw [Text.trim_append_cons hspace, Text.trimLeft_of_isBlank hindent, List.nil_append]
  simp [hmark]

/-- **An idle line does nothing.** -/
theorem Idle.apply {t : Text} (h : Idle t) (s : Settings) : (Line.ofText t).apply s = s := by
  cases h with
  | blank hblank =>
    unfold Line.ofText
    rw [Text.trim_of_isBlank hblank]
    rfl
  | comment hindent hmark =>
    rw [ofText_comment hindent hmark]
    rfl
  | noAssignment hnone =>
    unfold Line.ofText
    cases htrim : trim t with
    | nil => rfl
    | cons c r =>
      have hsplit : Text.splitFirst 61 (c :: r) = none :=
        Text.splitFirst_of_notMem fun hmem => hnone (Text.mem_of_mem_trim (htrim ▸ hmem))
      simp only [hsplit]
      split <;> rfl
  | @unknown name value hname hunknown =>
    by_cases hcomment : ∃ c ∈ (trimLeft name).head?, c = 35 ∨ c = 33
    · -- the name begins like a comment, so the line is one
      obtain ⟨mark, hhead, hmark⟩ := hcomment
      obtain ⟨rest, hrest⟩ := List.head?_eq_some_iff.1 hhead
      obtain ⟨indent, hindent, hindented⟩ := Text.exists_indent name
      rw [hindented, hrest, List.append_assoc, List.cons_append, ofText_comment hindent hmark]
      rfl
    · rw [ofText_of_split hname fun c hc hmark => hcomment ⟨c, hc, hmark⟩,
        Key.ofName?_eq_none hunknown]
      rfl

/-! ## Assignments -/

/-- White space within a line. -/
structure Gap where
  text : Text
  isBlank : IsBlank text
  newline_notMem : 10 ∉ text

/-- A way to write a key and its value on a line. -/
structure Spelling where
  key : Key
  value : Text
  isTight : IsTight value
  newline_notMem : 10 ∉ value
  indent : Gap
  beforeMark : Gap
  afterMark : Gap
  trailing : Gap

namespace Spelling

/-- The line of a spelling. -/
def toText (w : Spelling) : Text :=
  w.indent.text ++ w.key.name ++ w.beforeMark.text ++
    61 :: (w.afterMark.text ++ w.value ++ w.trailing.text)

/-- No key's name needs care on a line: it has no white space, no equals sign, and it does not begin
like a comment. -/
theorem plain_name (k : Key) :
    (∀ c ∈ k.name, isSpace c = false ∧ c ≠ 61) ∧ k.name.head? = some 98 := by
  have hall : (k.name.all fun c => !isSpace c && c != 61) = true := by cases k <;> decide
  refine ⟨fun c hc => ?_, by cases k <;> decide⟩
  simpa using List.all_eq_true.1 hall c hc

/-- **A spelling is read as the assignment that it is.** -/
theorem ofText_toText (w : Spelling) : Line.ofText w.toText = .assignment w.key w.value := by
  obtain ⟨hplain, hhead⟩ := plain_name w.key
  have hblank {t : Text} (h : IsBlank t) : 61 ∉ t := by
    intro hmem
    exact absurd (h _ hmem) (by decide)
  have hname : 61 ∉ w.indent.text ++ w.key.name ++ w.beforeMark.text := by
    rw [List.mem_append, List.mem_append]
    rintro ((hmem | hmem) | hmem)
    · exact hblank w.indent.isBlank hmem
    · exact (hplain _ hmem).2 rfl
    · exact hblank w.beforeMark.isBlank hmem
  have hmark : ∀ c ∈ (trimLeft (w.indent.text ++ w.key.name ++ w.beforeMark.text)).head?,
      ¬(c = 35 ∨ c = 33) := by
    obtain ⟨rest, hrest⟩ := List.head?_eq_some_iff.1 hhead
    rw [List.append_assoc, Text.trimLeft_append w.indent.isBlank, hrest, List.cons_append, trimLeft,
      List.dropWhile_cons_of_neg (by decide), List.head?_cons]
    intro c hc
    obtain ⟨rfl⟩ := hc
    decide
  have hkey : trim (w.indent.text ++ w.key.name ++ w.beforeMark.text) = w.key.name := by
    rw [Text.trim_padded w.indent.isBlank w.beforeMark.isBlank]
    exact Text.trim_eq_self (Text.isTight_of_forall fun c hc => (hplain c hc).1)
  rw [toText, ofText_of_split hname hmark, hkey, Key.ofName?_name,
    Text.trim_padded w.afterMark.isBlank w.trailing.isBlank, Text.trim_eq_self w.isTight]

theorem newline_notMem_toText (w : Spelling) : 10 ∉ w.toText := by
  have hname : 10 ∉ w.key.name := fun hmem => absurd ((plain_name w.key).1 _ hmem).1 (by decide)
  simp only [toText, List.mem_append, List.mem_cons, not_or]
  exact ⟨⟨⟨w.indent.newline_notMem, hname⟩, w.beforeMark.newline_notMem⟩, by decide,
    ⟨w.afterMark.newline_notMem, w.newline_notMem⟩, w.trailing.newline_notMem⟩

end Spelling

/-! ## Files -/

/-- A line of a properties file. -/
inductive Row where
  | assignment (w : Spelling)
  | idle (t : Text) (isIdle : Idle t) (newline_notMem : 10 ∉ t)

namespace Row

/-- The text of a row. -/
def toText : Row → Text
  | assignment w => w.toText
  | idle t .. => t

/-- What a row assigns. -/
def entry? : Row → Option (Key × Text)
  | assignment w => some (w.key, w.value)
  | idle .. => none

theorem applyText_toText (r : Row) (s : Settings) :
    applyText r.toText s = s.setAll r.entry?.toList := by
  cases r with
  | assignment w =>
    rw [toText, applyText_of_notMem w.newline_notMem_toText, w.ofText_toText]
    rfl
  | idle t hidle hnewline =>
    rw [toText, applyText_of_notMem hnewline, hidle.apply]
    rfl

/-- Rows with newlines between them. -/
def joined : List Row → Bytes
  | [] => []
  | [r] => r.toText
  | r :: rest => r.toText ++ 10 :: joined rest

/-- The contents of a file of rows, with or without a newline at its end. -/
def written (rows : List Row) (ends : Bool) : Bytes := joined rows ++ if ends then [10] else []

/-- Rows are done one after the other. -/
theorem applyText_joined (rows : List Row) (s : Settings) :
    applyText (joined rows) s = s.setAll (rows.filterMap entry?) := by
  fun_induction joined rows generalizing s with
  | case1 => rfl
  | case2 r =>
    rw [applyText_toText]
    cases hentry : r.entry? <;> simp [hentry]
  | case3 r rest _ ih =>
    rw [applyText_append, applyText_toText, ih, ← Settings.setAll_append]
    cases hentry : r.entry? <;> simp [hentry]

/-- A newline at the end adds a blank line. -/
theorem applyText_written (rows : List Row) (ends : Bool) (s : Settings) :
    applyText (written rows ends) s = s.setAll (rows.filterMap entry?) := by
  cases ends with
  | false => rw [written, if_neg Bool.false_ne_true, List.append_nil, applyText_joined]
  | true => rw [written, if_pos rfl, applyText_append, applyText_nil, applyText_joined]

end Row

/-! ## Finding and reading a file -/

section

variable {W : Type} [Filed W] [Journaled W]

/-- Which contents are found for a file, if any, does not depend on the settings. -/
theorem exists_update_eq (path : Text) (w : W) : ∃ (got : Option Bytes) (w' : W), ∀ s,
    update path s w = (got.isSome, got.elim s fun b => applyText b s, w') := by
  unfold update load
  cases (Filed.files w).contents? path with
  | none => exact ⟨none, _, fun s => rfl⟩
  | some b =>
    rcases Files.beginRead path w with ⟨_ | r, v⟩
    · exact ⟨none, v, fun s => rfl⟩
    · rcases hread : r.readNoted (UInt64.ofNat b.length) v with ⟨got, r', v'⟩
      by_cases hlength : got.length = b.length
      · simp only [hread, hlength, if_true]
        exact ⟨some got, _, fun s => rfl⟩
      · simp only [hread, hlength, if_false]
        exact ⟨none, _, fun s => rfl⟩

/-- A file that can be read as a whole is loaded. -/
theorem exists_load_of_keeps {path : Text} {S : Bytes} {w : W}
    (h : (Filed.files w).Keeps path S) :
    ∃ w', ∀ s, load path s w = (some (applyText S s), w') := by
  have hsize : (UInt64.ofNat S.length).toNat = S.length := UInt64.toNat_ofNat_of_lt' h.length_lt
  obtain ⟨n, -, hnode, hopen⟩ := h.readStream_eq
  have hbegin : Files.beginRead path w = (some { node := n }, w) := by
    rw [Files.beginRead, hopen]
  obtain ⟨r, hread, -⟩ := (Files.ReadStream.has_opened hnode).read (Nat.le_of_eq hsize)
  rw [hsize, List.take_length] at hread
  have hnoted := Files.ReadStream.readNoted_of_read hread
  unfold load
  simp only [h.contents, hbegin, hnoted, if_true]
  exact ⟨_, fun s => rfl⟩

theorem exists_update_of_keeps {path : Text} {S : Bytes} {w : W}
    (h : (Filed.files w).Keeps path S) :
    ∃ w', ∀ s, update path s w = (true, applyText S s, w') := by
  obtain ⟨w', hload⟩ := exists_load_of_keeps h
  refine ⟨w', fun s => ?_⟩
  rw [update, hload]

/-- **Properties files are loaded faithfully.**  Settings stay as they are if a file cannot be
loaded.  A newline between two files has the effect of loading the one and then the other.  And if
the lines of a file give a value to some keys, each of them once, these keys have their values in
the end and the others what they had: whatever the order of the lines, the white space in them and
the idle lines between them, and with or without a newline at the end. -/
theorem update_faithful (path : Text) (s : Settings) :
    (∀ w : W, (update path s w).1 = false → (update path s w).2.1 = s) ∧
    (∀ (A B : Bytes) (front back : Text) (w v v' : W),
      (Filed.files w).Keeps path (A ++ 10 :: B) → (Filed.files v).Keeps front A →
      (Filed.files v').Keeps back B →
        (update path s w).1 = true ∧ (update front s v).1 = true ∧
        (update back (update front s v).2.1 v').1 = true ∧
        (update path s w).2.1 = (update back (update front s v).2.1 v').2.1) ∧
    ∀ (rows : List Row) (ends : Bool) (C : Key → Option Text) (w : W),
      Lists (rows.filterMap Row.entry?) C → (Filed.files w).Keeps path (Row.written rows ends) →
        (update path s w).1 = true ∧ (update path s w).2.1 = s.overridden C := by
  refine ⟨fun w hfalse => ?_, fun A B front back w v v' hwhole hfront hback => ?_,
    fun rows ends C w hlists hfile => ?_⟩
  · obtain ⟨got, w', hupdate⟩ := exists_update_eq path w
    have hnone : got = none := by simpa [hupdate] using hfalse
    rw [hupdate, hnone]
    rfl
  · obtain ⟨w', hwhole⟩ := exists_update_of_keeps hwhole
    obtain ⟨u, hfront⟩ := exists_update_of_keeps hfront
    obtain ⟨u', hback⟩ := exists_update_of_keeps hback
    rw [hwhole, hfront, hback, applyText_append]
    exact ⟨rfl, rfl, rfl, rfl⟩
  · obtain ⟨w', hupdate⟩ := exists_update_of_keeps hfile
    rw [hupdate, Row.applyText_written, Settings.setAll_of_lists hlists]
    exact ⟨rfl, rfl⟩

end

/-! ### A file with all kinds of lines -/

/-- A site with one file, called `p`. -/
def single (b : Bytes) : Site where
  files := { nodes := #[.directory 0 [(text "p", 1)], .file b] }

theorem keeps_single {b : Bytes} (h : b.length < UInt64.size) :
    (single b).files.Keeps (text "p") b where
  contents := by
    have hfind : (single b).files.find (text "p") = .ok 1 := rfl
    rw [Files.Store.contents?, hfind]
    rfl
  readable := List.not_mem_nil
  full := List.not_mem_nil
  length_lt := h

/-- White space of a line, which may hold a carriage return. -/
def Gap.crlf : Gap := ⟨[32, 13], by decide, by decide⟩

/-- No white space. -/
def Gap.none : Gap := ⟨[], by decide, by decide⟩

/-- A storage directory whose name makes use of every mark that has a meaning on a line. -/
def marked : Spelling where
  key := .storageDirectory
  value := 35 :: (text " a=b ! " ++ [0])
  isTight := Text.isTight_of_ends (by decide) (by decide)
  newline_notMem := by decide
  indent := ⟨[9], by decide, by decide⟩
  beforeMark := Gap.crlf
  afterMark := Gap.crlf
  trailing := Gap.crlf

/-- A data folder without a name. -/
def nameless : Spelling where
  key := .dataFolder
  value := []
  isTight := Text.isTight_of_forall (List.forall_mem_nil _)
  newline_notMem := by decide
  indent := Gap.none
  beforeMark := Gap.none
  afterMark := Gap.none
  trailing := Gap.none

/-- Both of them, with idle lines of all kinds in between. -/
def motley : List Row :=
  [.idle (text "  " ++ 35 :: text "blkio.worker.data.folder=x") (.comment (by decide) (.inl rfl))
      (by decide),
    .assignment marked,
    .idle Gap.crlf.text (.blank Gap.crlf.isBlank) Gap.crlf.newline_notMem,
    .idle (text "blkio.worker.data.folder") (.noAssignment (by decide)) (by decide),
    .idle (text "Blkio.worker.data.folder" ++ 61 :: text "x")
      (.unknown (by decide) fun k => by cases k <;> decide) (by decide),
    .assignment nameless]

/-- What they give values to. -/
def motleyValues : Key → Option Text
  | .storageDirectory => some (35 :: (text " a=b ! " ++ [0]))
  | .dataFolder => some []
  | _ => none

/-- Two folders for one key. -/
def folders : Text × Text :=
  (text "blkio.worker.data.folder=x", text "blkio.worker.data.folder = y \r")

/-- The file with all kinds of lines is loaded as it is meant, and a missing file is not.  Of two
values for a key in one file the second one counts, as if it came from another file. -/
theorem update_faithful_motley :
    (update (text "p") .initial (single (Row.written motley false))).2.1 =
        Settings.initial.overridden motleyValues ∧
      (update (text "p") .initial ({} : Site)).2.1 = .initial ∧
      (update (text "p") .initial (single (folders.1 ++ 10 :: folders.2))).2.1 =
        (update (text "p") (update (text "p") .initial (single folders.1)).2.1
          (single folders.2)).2.1 := by
  obtain ⟨hmissing, hjoined, hrows⟩ := update_faithful (W := Site) (text "p") .initial
  have hlists : Lists (motley.filterMap Row.entry?) motleyValues := by
    refine ⟨by decide, fun k v => ?_⟩
    cases k <;> simp [motley, Row.entry?, motleyValues, marked, nameless, eq_comm]
  have hlength : (Row.written motley false).length < UInt64.size := by
    have hexact : (Row.written motley false).length = 169 := by rfl
    rw [hexact]
    decide
  have hwritten := hrows motley false motleyValues _ hlists (keeps_single hlength)
  have hboth := hjoined folders.1 folders.2 (text "p") (text "p") _ _ _
    (keeps_single (by decide)) (keeps_single (by decide)) (keeps_single (by decide))
  have hfalse : (update (text "p") Settings.initial ({} : Site)).1 = false := by
    have hnone : (Filed.files ({} : Site)).contents? (text "p") = none := by decide
    rw [update, load, hnone]
  exact ⟨hwritten.2, hmissing _ hfalse, hboth.2.2.2⟩

end BlockAccess.Properties

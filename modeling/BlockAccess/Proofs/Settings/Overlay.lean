import Mathlib.Data.List.Nodup
import BlockAccess.Proofs.Acts
import BlockAccess.Proofs.Settings.Loading
import BlockAccess.Settings.Mount

/-!
# A mount answers like settings

A mount looks up every key twice, among its own values and in the settings of the client.
`Mount.overlay` makes settings of both, those of the client with the mount's values in place, and
`shows_overlay` says that the mount answers like these settings do, in every respect.  It makes no
difference in which order the mount's values are put in place, as `setAll_known` says, nor that some
of the names may be no key's.

The settings of the client may change meanwhile.  `Change` is what can happen to them and to the
files that they are loaded from.  Two clients that differ only in keys of the mount's own still do
so after any changes (`overridden_after`), since what a file says does not depend on the settings
that it is loaded into.
-/

namespace BlockAccess

namespace Settings

/-! ## Changes of settings -/

/-- What can happen to the settings of a client and around them. -/
inductive Change (W : Type) where
  | set (k : Key) (v : Text)
  | unset (k : Key)
  /-- A properties file is loaded. -/
  | load (path : Text)
  /-- Something else happens, to the files for instance. -/
  | elsewhere (happen : W → W)

variable {W : Type} [Files.Filed W] [Journaled W] {f : Key → Option Text} {s t : Settings}

/-- Makes a change.  Only loading a file can fail. -/
def Change.make : Change W → Settings × W → Bool × Settings × W
  | set k v, (s, w) => (true, s.set k v, w)
  | unset k, (s, w) => (true, s.unset k, w)
  | load path, (s, w) => Properties.update path s w
  | elsewhere happen, (s, w) => (true, s, happen w)

/-- The settings after changes. -/
def after (s : Settings) (changes : List (Change W)) (w : W) : Settings :=
  (endOf Change.make changes (s, w)).1

theorem after_append (s : Settings) (changes more : List (Change W)) (w : W) :
    s.after (changes ++ more) w =
      (s.after changes w).after more (endOf Change.make changes (s, w)).2 := by
  rw [after, endOf_append]
  rfl

theorem overridden_overridden (s : Settings) (f : Key → Option Text) :
    (s.overridden f).overridden f = s.overridden f := by
  ext l : 1
  rw [value?_overridden, value?_overridden]
  cases f l <;> rfl

/-- Settings that differ in hidden keys still do so after one key was set in both, or unset. -/
theorem overridden_ite_congr (h : s.overridden f = t.overridden f) (k : Key) (u : Option Text) :
    (⟨fun l => if l = k then u else s.value? l⟩ : Settings).overridden f =
      (⟨fun l => if l = k then u else t.value? l⟩ : Settings).overridden f := by
  ext l : 1
  have hl := congrArg (value? · l) h
  simp only [value?_overridden] at hl ⊢
  by_cases hlk : l = k
  · rw [if_pos hlk, if_pos hlk]
  · rw [if_neg hlk, if_neg hlk, hl]

/-- The lines of a file do the same to settings that differ in hidden keys. -/
theorem overridden_applyText_congr (h : s.overridden f = t.overridden f) (b : Bytes) :
    (Properties.applyText b s).overridden f = (Properties.applyText b t).overridden f := by
  unfold Properties.applyText
  induction Properties.lines b generalizing s t with
  | nil => exact h
  | cons line rest ih =>
    rw [List.foldl_cons, List.foldl_cons]
    apply ih
    cases line with
    | assignment k v => exact overridden_ite_congr h k (some v)
    | ignored | noAssignment | unknown => exact h

/-- **A change keeps what two clients have in common** outside of some keys, and it does the same
around them. -/
theorem Change.make_congr (h : s.overridden f = t.overridden f) (c : Change W) (w : W) :
    (c.make (s, w)).1 = (c.make (t, w)).1 ∧
      (c.make (s, w)).2.1.overridden f = (c.make (t, w)).2.1.overridden f ∧
      (c.make (s, w)).2.2 = (c.make (t, w)).2.2 := by
  cases c with
  | set k v => exact ⟨rfl, overridden_ite_congr h k (some v), rfl⟩
  | unset k => exact ⟨rfl, overridden_ite_congr h k none, rfl⟩
  | load path =>
    obtain ⟨got, w', hupdate⟩ := Properties.exists_update_eq path w
    rw [make, make, hupdate, hupdate]
    refine ⟨rfl, ?_, rfl⟩
    cases got with
    | none => exact h
    | some b => exact overridden_applyText_congr h b
  | elsewhere happen => exact ⟨rfl, h, rfl⟩

/-- Any changes keep it. -/
theorem overridden_after (h : s.overridden f = t.overridden f) (changes : List (Change W)) (w : W) :
    (s.after changes w).overridden f = (t.after changes w).overridden f := by
  induction changes generalizing s t w with
  | nil => exact h
  | cons c changes ih =>
    obtain ⟨-, hsettings, hworld⟩ := c.make_congr h w
    have hs : s.after (c :: changes) w =
        (c.make (s, w)).2.1.after changes (c.make (s, w)).2.2 := rfl
    have ht : t.after (c :: changes) w =
        (c.make (t, w)).2.1.after changes (c.make (t, w)).2.2 := rfl
    rw [hs, ht, hworld]
    exact ih hsettings _

end Settings

namespace Mount

open Settings (Change)

variable {m : Mount} {s t : Settings} {es : List (Text × Text)} {k : Key}

/-! ## Settings that answer like a mount -/

/-- The settings of a client with a mount's own values in place. -/
def overlay (m : Mount) (s : Settings) : Settings := s.overridden fun k => m.override? k.name

/-- Values by key, of those whose name is a key's. -/
def known (es : List (Text × Text)) : List (Key × Text) :=
  es.filterMap fun e => (Key.ofName? e.1).map fun k => (k, e.2)

/-- Different names do not belong to one key. -/
theorem lists_known (h : Lists es m.override?) : Lists (known es) fun k => m.override? k.name where
  nodup := by
    have hkeys : (known es).map Prod.fst = (es.map Prod.fst).filterMap Key.ofName? := by
      rw [known, List.map_filterMap, List.filterMap_map]
      congr 1
      funext e
      cases hkey : Key.ofName? e.1 <;> simp [hkey]
    rw [hkeys]
    refine h.nodup.filterMap fun n n' k hn hn' => ?_
    rw [Key.ofName?_eq_some_iff.1 hn, Key.ofName?_eq_some_iff.1 hn']
  mem_iff k v := by
    rw [← h.mem_iff]
    simp only [known, List.mem_filterMap, Option.map_eq_some_iff, Key.ofName?_eq_some_iff,
      Prod.mk.injEq]
    constructor
    · rintro ⟨⟨n, v⟩, hmem, k, hn, rfl, rfl⟩
      exact hn ▸ hmem
    · intro hmem
      exact ⟨_, hmem, k, rfl, rfl, rfl⟩

/-- **The overlay is the client's settings with each of the mount's keys set**, in any order. -/
theorem setAll_known (h : Lists es m.override?) (s : Settings) :
    s.setAll (known es) = m.overlay s := Settings.setAll_of_lists (lists_known h) s

/-- A mount and settings give the same answers for a key. -/
structure ShowsAt (m : Mount) (s t : Settings) (k : Key) : Prop where
  contains : m.contains s k = t.contains k
  get : m.get s k = t.get k
  getBytes : m.getBytes s k = t.getBytes k
  getInt : m.getInt s k = t.getInt k

/-- A mount and settings give the same answers, also for the paths of blocks. -/
structure Shows (m : Mount) (s t : Settings) : Prop where
  showsAt : ∀ k, m.ShowsAt s t k
  blockPath : ∀ block, m.blockPath s block = t.blockPath block

/-- What a mount shows for a key is decided by the mount's own value and the client's. -/
theorem showsAt_of_value? (h : t.value? k = (m.override? k.name).or (s.value? k)) :
    m.ShowsAt s t k := by
  have hget : m.get s k = t.get k := by
    cases hown : m.override? k.name <;>
      simp only [Mount.get, Settings.get, h, hown, Option.none_or, Option.some_or]
  constructor
  · rw [Mount.contains, Settings.contains, Settings.contains, h, Option.isSome_or]
  · exact hget
  · cases hk : t.get k <;> simp only [Mount.getBytes, Settings.getBytes, hget, hk]
  · cases hk : t.get k <;> simp only [Mount.getInt, Settings.getInt, hget, hk]

/-- A mount shows the client's settings with its own values in place. -/
theorem shows_overlay (m : Mount) (s : Settings) : m.Shows s (m.overlay s) where
  showsAt _ := showsAt_of_value? rfl
  blockPath block := by
    have hget (k : Key) : m.get s k = Mount.get {} (m.overlay s) k :=
      (showsAt_of_value? rfl : m.ShowsAt s (m.overlay s) k).get
    rw [Settings.blockPath, Mount.blockPath, Mount.blockPath, hget, hget]

theorem contains_iff (m : Mount) (s : Settings) (k : Key) :
    m.contains s k = true ↔ ∃ v, m.get s k = .ok v := by
  obtain ⟨hcontains, hget, -, -⟩ := (m.shows_overlay s).showsAt k
  rw [hcontains, hget, Settings.contains, Settings.get]
  cases (m.overlay s).value? k <;> simp

/-- The names of a mount without repetition list its values. -/
theorem lists_overrides (h : (m.overrides.map Prod.fst).Nodup) : Lists m.overrides m.override? where
  nodup := h
  mem_iff name v := by
    have hname {e : Text × Text} (he : m.overrides.find? (fun e => e.1 == name) = some e) :
        e.1 = name := by
      have hfound := List.find?_some he
      exact beq_iff_eq.1 hfound
    rw [override?, Option.map_eq_some_iff]
    constructor
    · intro hmem
      have hfound : (m.overrides.find? fun e => e.1 == name).isSome := by
        rw [List.find?_isSome]
        exact ⟨_, hmem, beq_self_eq_true name⟩
      obtain ⟨e, he⟩ := Option.isSome_iff_exists.1 hfound
      have hsame : e = (name, v) :=
        List.inj_on_of_nodup_map h (List.mem_of_find?_eq_some he) hmem (hname he)
      exact ⟨e, he, congrArg Prod.snd hsame⟩
    · rintro ⟨e, he, rfl⟩
      exact hname he ▸ List.mem_of_find?_eq_some he

section

variable {W : Type} [Files.Filed W] [Journaled W]

/-- **A mount is transparent.**  Whatever happens to the client's settings after the mount was made,
the mount answers like settings in which its own values are set over the client's, and it has a key
if and only if it gives a value for it.  The client's settings show through, now and later, on the
keys that the mount does not override and only on these; the others keep the mount's value.  Nor
does it matter whether the values were put in place before the changes already. -/
theorem shows_after (m : Mount) (changes : List (Change W)) (s : Settings) (w : W) :
    (∀ es, Lists es m.override? →
      m.Shows (s.after changes w) ((s.after changes w).setAll (known es))) ∧
    (∀ k, m.contains (s.after changes w) k = true ↔ ∃ v, m.get (s.after changes w) k = .ok v) ∧
    (∀ k, m.override? k.name = none ↔ ∀ more : List (Change W),
      m.ShowsAt (s.after (changes ++ more) w) (s.after (changes ++ more) w) k) ∧
    (∀ k v, m.override? k.name = some v ↔ ∀ more : List (Change W),
      m.get (s.after (changes ++ more) w) k = .ok v) ∧
    m.overlay ((m.overlay s).after changes w) = m.overlay (s.after changes w) := by
  -- a change after which the client has nothing to show for a key
  have hunset (k : Key) : (s.after (changes ++ [.unset k]) w).get k =
      .error (.settings (.unset k)) := by
    rw [Settings.after_append, Settings.get]
    simp [Settings.after, Change.make, endOf, act]
  refine ⟨fun es hes => ?_, m.contains_iff _, fun k => ?_, fun k v => ?_, ?_⟩
  · rw [setAll_known hes]
    exact m.shows_overlay _
  · constructor
    · intro hnone more
      refine showsAt_of_value? ?_
      rw [hnone, Option.none_or]
    · intro hshows
      have hget := (hshows [.unset k]).get
      rw [hunset, Mount.get] at hget
      cases hown : m.override? k.name with
      | none => rfl
      | some v => simp [hown] at hget
  · constructor
    · intro hsome more
      rw [Mount.get, hsome]
    · intro hget
      have hlost := hget [.unset k]
      rw [Mount.get, hunset] at hlost
      cases hown : m.override? k.name with
      | none => simp [hown] at hlost
      | some u =>
        rw [hown] at hlost
        exact congrArg some (Except.ok.inj hlost)
  · exact Settings.overridden_after (Settings.overridden_overridden s _) changes w

end

/-- A mount with a name that is no key's and an empty folder. -/
def tinted : Mount := { overrides := [(text "color", text "red"), (Key.name .dataFolder, [])] }

/-- A properties file with one good line. -/
def scrap : Bytes := text "blkio.user.network.connect.timeout.ms = 1\n?"

/-- A folder is set that the mount overrides, a file comes up and is loaded, and the storage
directory is lost. -/
def turmoil : List (Change Site) :=
  [.set .dataFolder (text "x"), .elsewhere fun _ => Properties.single scrap, .load (text "p"),
    .unset .storageDirectory]

theorem after_turmoil (w : Site) : Settings.initial.after turmoil w =
    ((Settings.initial.set .dataFolder (text "x")).set .connectTimeout (text "1")).unset
      .storageDirectory := by
  have hkeeps := Properties.keeps_single (b := scrap) (by decide)
  obtain ⟨w', hload⟩ := Properties.exists_update_of_keeps (w := Properties.single scrap) hkeeps
  have hlines : Properties.lines scrap =
      [.assignment .connectTimeout (text "1"), .noAssignment] := by decide
  have hlast : Settings.initial.after turmoil w = (Properties.update (text "p")
      (Settings.initial.set .dataFolder (text "x")) (Properties.single scrap)).2.1.unset
        .storageDirectory := rfl
  rw [hlast, hload, Properties.applyText, hlines]
  rfl

/-- The mount has the timeout of the file and its own empty folder, and it cannot tell the path of a
block any more. -/
theorem shows_after_tinted :
    let g := Settings.initial.after turmoil {}
    tinted.Shows g (g.setAll (known tinted.overrides)) ∧
      g.setAll (known tinted.overrides) = g.set .dataFolder [] ∧
      tinted.getInt g .connectTimeout = .ok 1 ∧ tinted.get g .dataFolder = .ok [] ∧
      g.get .dataFolder = .ok (text "x") ∧
      tinted.blockPath g 7 = .error (.settings (.unset .storageDirectory)) := by
  intro g
  have hlists : Lists tinted.overrides tinted.override? := lists_overrides (by decide)
  obtain ⟨hshows, -, -, hkept, -⟩ := tinted.shows_after turmoil .initial {}
  have hown : tinted.override? (Key.name .dataFolder) = some [] := by decide
  have hg : g = ((Settings.initial.set .dataFolder (text "x")).set .connectTimeout
      (text "1")).unset .storageDirectory := after_turmoil {}
  refine ⟨hshows _ hlists, rfl, ?_, (hkept .dataFolder []).1 hown [], ?_, ?_⟩
  · rw [hg]
    decide
  · rw [hg]
    decide
  · rw [hg]
    decide

end Mount

end BlockAccess

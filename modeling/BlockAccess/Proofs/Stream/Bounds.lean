import BlockAccess.Proofs.Stream.Within
import BlockAccess.Proofs.Trace.Discipline
import BlockAccess.Stream.Progress

/-!
# Where a stream can get to

A stream of a declared length that is below 2^63 is meant to stay within it: its position and what
it says is left, what it passes over, and the ranges that it asks readers for.  `Step.Bounded` says
this of a call.

A read in sequence goes on by what it obtains, and nobody looks whether that was still there to be
had.  So the bounds depend on the source, and `bounded_iff` says in which way: they hold through a
run unless a read of the run obtains more bytes than were left, which is `Step.Overruns`.  A source
whose readers keep to their ranges (`Source.Ranged`) never lets a read do so.
-/

namespace BlockAccess
namespace Stream

open Offset

variable {W R : Type} [Journaled W]

/-! ## Bounds -/

/-- The bounds of a call on a stream of a declared length. -/
structure Step.Bounded (length : UInt64) (st : Step (Observed W) (Numbered R)) : Prop where
  position : st.after.1.position ≤ length
  remaining : ∀ left, st.after.1.remaining = .ok left →
    0 ≤ left.toInt ∧ left.toInt ≤ length.toNat
  /-- A read in sequence goes on by what it obtains. -/
  reads : st.op.reads = true →
    st.after.1.position.toNat = st.before.1.position.toNat + st.taken
  skips : ∀ n, st.op = .skip n → st.before.1.position ≤ st.after.1.position ∧
    ∀ k, st.outcome.result = .ok (.amount k) → 0 ≤ k.toInt
  /-- A reader for the reads in sequence is asked for from the position to the declared end. -/
  creates : st.op.visits = false → ∀ r o n made, .created r o n made ∈ st.events →
    o ≤ length ∧ n.toNat = length.toNat - o.toNat

/-- A read in sequence obtains more bytes than were left. -/
def Step.Overruns (length : UInt64) (st : Step (Observed W) (Numbered R)) : Prop :=
  st.op.reads = true ∧ length.toNat < st.before.1.position.toNat + st.taken

/-! ### The ranges that readers are asked for -/

/-- The event is not about asking for a reader, or it is about one for this range. -/
def AsksFor (offset length : UInt64) : Event → Prop
  | .created _ o n _ => o = offset ∧ n = length
  | _ => True

/-- Since the events `es` were seen, readers were only asked for a certain range. -/
def Asked (offset length : UInt64) (es : List Event) (o : Observed W) : Prop :=
  ∃ es', o.events.toList = es ++ es' ∧ ∀ e ∈ es', AsksFor offset length e

omit [Journaled W] in
theorem Asked.now (offset length : UInt64) (o : Observed W) :
    Asked offset length o.events.toList o :=
  ⟨[], (List.append_nil _).symm, fun _ he => absurd he List.not_mem_nil⟩

omit [Journaled W] in
theorem Asked.see {offset length : UInt64} {es : List Event} {o o' : Observed W} {e : Event}
    (h : Asked offset length es o) (hevents : o'.events = o.events.push e)
    (he : AsksFor offset length e) : Asked offset length es o' := by
  obtain ⟨es', hes, hall⟩ := h
  refine ⟨es' ++ [e], by rw [hevents, Array.toList_push, hes, List.append_assoc], ?_⟩
  intro e' he'
  rcases List.mem_append.1 he' with hmem | hmem
  · exact hall e' hmem
  · rw [List.mem_singleton.1 hmem]
    exact he

theorem upholds_asked (src : Source W R) (offset length : UInt64) (es : List Event) :
    src.observed.Upholds offset length fun _ _ => Asked (W := W) offset length es where
  note _ h := h
  create {p o x o'} h hx := by
    simp only [Source.observed, Prod.mk.injEq] at hx
    obtain ⟨-, rfl⟩ := hx
    exact h.see (o := o) rfl ⟨rfl, rfl⟩
  next {r o x r' o'} h hx := by
    simp only [Source.observed] at hx
    split at hx
    all_goals
      simp only [Prod.mk.injEq] at hx
      obtain ⟨-, -, rfl⟩ := hx
      exact h.see (o := o) rfl trivial
  release {r p o} h := h.see (o := o) rfl trivial
  close {r o x r' o'} h hx := by
    simp only [Source.observed, Prod.mk.injEq] at hx
    obtain ⟨-, -, rfl⟩ := hx
    exact h.see (o := o) rfl trivial
  unread _ h := h

theorem asked_step (src : Source W R) {op : Op} (hop : op.visits = false)
    (p : Stream (Numbered R) × Observed W) :
    ∀ e ∈ (step src.observed op p).events, AsksFor p.1.position p.1.rest e := by
  have hstart : Asked p.1.position p.1.rest p.2.events.toList p.2 := .now _ _ _
  have hu := upholds_asked src p.1.position p.1.rest p.2.events.toList
  have hasked : Asked p.1.position p.1.rest p.2.events.toList (step src.observed op p).after.2 := by
    by_cases hseq : op.sequential = true
    · exact hu.step hseq hstart
    cases op with
    | readAt target memory start count => simp [Op.visits] at hop
    | close =>
      by_cases hclosed : p.1.closed = true
      · rw [(step_closed src.observed .close hclosed).1]
        exact hstart
      · obtain ⟨o, ho, hafter⟩ := hu.closing (s := p.1) (w := p.2) (by simpa using hclosed) hstart
        have hstep : (step src.observed .close p).after.2 = (src.observed.shutDown o).2 := hafter
        rw [hstep]
        exact ho.see (o := o) rfl trivial
    | _ => simp [Op.sequential] at hseq
  obtain ⟨es', hes, hall⟩ := hasked
  rw [Step.events_eq hes]
  exact hall

/-! ### Calls -/

/-- A read in sequence that obtains no more than what was left goes on by that. -/
theorem Within.step_reads {length : UInt64} (src : Source W R) {op : Op} (hop : op.reads = true)
    {p : Stream (Numbered R) × Observed W} (hp : p.1.Within length)
    (hfits : p.1.position.toNat + (step src.observed op p).taken ≤ length.toNat) :
    (step src.observed op p).after.1.position.toNat =
      p.1.position.toNat + (step src.observed op p).taken := by
  rcases reads_cases src.observed hop hp.tidy with
    ⟨hafter, htaken, -⟩ | ⟨n, x, -, -, hf, -, htaken⟩
  · rw [hafter, htaken, Nat.add_zero]
  rw [htaken] at hfits ⊢
  rcases hafter : (step src.observed op p).after with ⟨s', o'⟩
  rw [hafter] at hf
  cases fetched hp.tidy hf with
  | bytes r k b _ hle _ =>
    have hlimit := length.toNat_lt
    have hb : (UInt64.ofNat b.length).toNat = b.length :=
      UInt64.toNat_ofNat_of_lt' (Nat.lt_of_le_of_lt hle n.toNat_lt)
    simp only [obtained] at hfits ⊢
    rw [toNat_add (by simp only [UInt64.size]; omega), hb]
  | _ => rfl

theorem Within.step_within {length : UInt64} (hL : length.toNat < signedLimit) (src : Source W R)
    (op : Op) {p : Stream (Numbered R) × Observed W} (hp : p.1.Within length)
    (hfits : ¬(step src.observed op p).Overruns length) :
    (step src.observed op p).after.1.Within length := by
  by_cases hclose : op = .close
  · subst hclose
    have hafter : (step src.observed .close p).after.1 =
        if p.1.closed then p.1 else { p.1 with closed := true, reader := none, packet := none } :=
      close_snd src.observed p.1 p.2
    rw [hafter]
    split
    · exact hp
    · exact ⟨fun _ => rfl, hp.length_eq, hp.position_le⟩
  obtain ⟨-, hlength, -, htidy⟩ := step_keeps src.observed hclose hp.tidy
  refine ⟨htidy, hlength.trans hp.length_eq, ?_⟩
  by_cases hreads : op.reads = true
  · have hle : p.1.position.toNat + (step src.observed op p).taken ≤ length.toNat :=
      Nat.le_of_not_lt fun hlt => hfits ⟨hreads, hlt⟩
    rw [hp.step_reads src hreads hle]
    exact hle
  cases op with
  | readByte | read => simp [Op.reads] at hreads
  | readAt | remaining | position => exact hp.position_le
  | seek target =>
    rcases h : p.1.seek src.observed target p.2 with ⟨x, s', w'⟩
    simp only [step, perform, h]
    rcases seek_cases h with rfl | ⟨-, -, hle, ⟨-, rfl⟩ | ⟨-, rfl⟩⟩
    · exact hp.position_le
    · exact hp.position_le
    · rw [hp.length_eq, UInt64.le_iff_toNat_le] at hle
      exact hle
  | skip n => exact (hp.step_skip hL src.observed).2.1
  | close => exact absurd rfl hclose

theorem Within.step_bounded {length : UInt64} (hL : length.toNat < signedLimit) (src : Source W R)
    (op : Op) {p : Stream (Numbered R) × Observed W} (hp : p.1.Within length)
    (hfits : ¬(step src.observed op p).Overruns length) :
    (step src.observed op p).Bounded length := by
  have hafter := hp.step_within hL src op hfits
  constructor
  case position => exact UInt64.le_iff_toNat_le.2 hafter.position_le
  case remaining =>
    intro left hleft
    obtain ⟨hnonneg, hle⟩ := hafter.remaining hL hleft
    exact ⟨hnonneg, by omega⟩
  case reads =>
    intro hreads
    exact hp.step_reads src hreads (Nat.le_of_not_lt fun hlt => hfits ⟨hreads, hlt⟩)
  case skips =>
    rintro n hn
    obtain rfl : op = .skip n := hn
    obtain ⟨hmoves, -, hamount⟩ := hp.step_skip hL src.observed (n := n)
    exact ⟨hmoves, hamount⟩
  case creates =>
    intro hvisits r o n made hmem
    obtain ⟨rfl, rfl⟩ : o = p.1.position ∧ n = p.1.rest := asked_step src hvisits p _ hmem
    exact ⟨UInt64.le_iff_toNat_le.2 hp.position_le, hp.toNat_rest⟩

/-- A run stays within bounds if and only if none of its reads obtains more than was left. -/
theorem bounded_iff {length : UInt64} (hL : length.toNat < signedLimit) (src : Source W R) (w : W)
    (block : UInt64) (ops : List Op) :
    (∀ st ∈ history src.observed ops (start block length, { inner := w }), st.Bounded length) ↔
      ∀ st ∈ history src.observed ops (start block length, { inner := w }),
        ¬st.Overruns length := by
  constructor
  · rintro h st hst ⟨hreads, hlt⟩
    have hbounded := h st hst
    have hle := UInt64.le_iff_toNat_le.1 hbounded.position
    rw [hbounded.reads hreads] at hle
    omega
  · intro h
    exact forall_mem_history_imp (I := fun p => p.1.Within length)
      (fun op p hp hfits => ⟨hp.step_bounded hL src op hfits, hp.step_within hL src op hfits⟩)
      within_start h

end Stream

/-! ## Sources that keep to their ranges -/

/-- A source whose readers hand out no more bytes than the range that they were made for has. -/
structure Source.Ranged {W R : Type} (src : Source W R) extends src.Supply where
  left_create : ∀ {offset length w r w'}, src.create offset length w = (.ok r, w') →
    left r ≤ length.toNat
  /-- What a reader has left does not grow, also when it fails. -/
  left_le : ∀ {r w x r' w'}, src.next r w = (x, r', w') → left r' ≤ left r

namespace Source.Ranged

variable {W R : Type} {src : Source W R}

/-- Watching a source does not change what its readers have left. -/
def observed (k : src.Ranged) : src.observed.Ranged where
  left r := k.left r.reader
  left_next {r o p r' o'} h := by
    simp only [Source.observed] at h
    split at h
    · simp at h
    · simp at h
    · next q reader w hq =>
      simp only [Prod.mk.injEq, Except.ok.injEq, Option.some.injEq] at h
      obtain ⟨rfl, rfl, -⟩ := h
      show k.left reader + q.readable ≤ k.left r.reader
      exact k.left_next hq
  left_create {offset length o r o'} h := by
    rcases hc : src.create offset length o.inner with ⟨x, w⟩
    simp only [Source.observed, hc, Prod.mk.injEq] at h
    cases x with
    | error f => simp [Except.map] at h
    | ok reader =>
      obtain rfl := Except.ok.inj h.1
      exact k.left_create hc
  left_le {r o x r' o'} h := by
    simp only [Source.observed] at h
    split at h
    all_goals
      next hn =>
      simp only [Prod.mk.injEq] at h
      obtain ⟨-, rfl, -⟩ := h
      exact k.left_le hn

variable [Journaled W] {s s' : Stream R} {w w' : W} {N : Nat}

/-- What is pulled comes out of what the reader had left. -/
theorem left_pull (k : src.Ranged) {block : UInt64} {budget : Nat} {r r' : R} {w w' : W}
    {x : Except Failure (Option Packet)} (h : src.pull block budget r w = (x, r', w')) :
    k.left r' + ((handed x).map Packet.readable).getD 0 ≤ k.left r := by
  induction budget generalizing r w with
  | zero =>
    simp only [Source.pull, Prod.mk.injEq] at h
    obtain ⟨rfl, rfl, -⟩ := h
    exact Nat.le_refl _
  | succ budget ih =>
    unfold Source.pull at h
    split at h
    · next p r₁ w₁ hp =>
      have hnext := k.left_next hp
      split at h
      · exact Nat.le_trans (ih h) (by omega)
      · simp only [Prod.mk.injEq] at h
        obtain ⟨rfl, rfl, -⟩ := h
        exact hnext
    · next y r₁ w₁ hnot hx =>
      simp only [Prod.mk.injEq] at h
      obtain ⟨rfl, rfl, -⟩ := h
      have hnone : handed y = none := by
        rcases y with f | _ | p
        · rfl
        · rfl
        · exact absurd rfl (hnot p)
      rw [hnone]
      exact k.left_le hx

theorem weight_withReader (k : src.Ranged) {x : Except Failure R} (hs : s.Tidy)
    (hrest : s.rest.toNat ≤ N) (hw : s.weight k.toSupply ≤ N)
    (h : s.withReader src w = (x, s', w')) : s'.weight k.toSupply ≤ N := by
  unfold Stream.withReader at h
  split at h
  · simp only [Prod.mk.injEq] at h
    obtain ⟨-, rfl, -⟩ := h
    exact hw
  next hnone =>
  split at h
  · simp only [Prod.mk.injEq] at h
    obtain ⟨-, rfl, -⟩ := h
    exact hw
  · next r w₁ hc =>
    simp only [Prod.mk.injEq] at h
    obtain ⟨-, rfl, -⟩ := h
    rw [Stream.weight, hs hnone]
    exact Nat.le_trans (k.left_create hc) hrest

/-- Filling takes no more than the range has. -/
theorem weight_fill (k : src.Ranged) {x : Except Failure Unit} (hs : s.Tidy)
    (hrest : s.rest.toNat ≤ N) (hw : s.weight k.toSupply ≤ N) (h : s.fill src w = (x, s', w')) :
    s'.weight k.toSupply ≤ N := by
  unfold Stream.fill at h
  split at h
  · next f s₁ w₁ hr =>
    simp only [Prod.mk.injEq] at h
    obtain ⟨-, rfl, -⟩ := h
    exact k.weight_withReader hs hrest hw hr
  next r s₁ w₁ hr =>
  have hreader := k.weight_withReader hs hrest hw hr
  obtain ⟨-, hsome⟩ := Stream.withReader_snd hr
  split at h
  · simp only [Prod.mk.injEq] at h
    obtain ⟨-, rfl, -⟩ := h
    exact hreader
  obtain ⟨hrel, hkept, hnone⟩ := Stream.weight_releasePacket k.toSupply s₁ w₁
  split at h
  next s₂ w₂ h₂ =>
  rw [h₂] at hrel hkept hnone
  dsimp only at hrel hkept hnone
  have hleft : k.left r ≤ N := by
    rw [Stream.weight, hkept, hsome r rfl] at hrel
    exact Nat.le_trans (Nat.le_add_right ..) (Nat.le_trans hrel hreader)
  split at h
  all_goals
    next hpull =>
    have hpulled := k.left_pull hpull
    simp only [Prod.mk.injEq] at h
    obtain ⟨-, rfl, -⟩ := h
    simp only [Stream.weight, hnone] at hpulled ⊢
    exact Nat.le_trans hpulled hleft

/-- What a read obtains and what is there afterwards come out of the range. -/
theorem weight_fetch (k : src.Ranged) {n : UInt64} {x : Except Failure (Option Bytes)}
    (hs : s.Tidy) (hrest : s.rest.toNat ≤ N) (hw : s.weight k.toSupply ≤ N)
    (h : s.fetch src n w = (x, s', w')) :
    Stream.obtained x + s'.weight k.toSupply ≤ N := by
  unfold Stream.fetch at h
  split at h
  · next f s₁ w₁ hf =>
    have hfill := k.weight_fill hs hrest hw hf
    simp only [Prod.mk.injEq] at h
    obtain ⟨rfl, rfl, -⟩ := h
    simpa [Stream.obtained] using hfill
  next s₁ w₁ hf =>
  have hfill := k.weight_fill hs hrest hw hf
  split at h
  · have hdrop := Stream.dropReader_snd src { s₁ with ended := true } w₁
    split at h
    all_goals
      next hd =>
      rw [hd] at hdrop
      dsimp only at hdrop
      simp only [Prod.mk.injEq] at h
      obtain ⟨rfl, rfl, -⟩ := h
      rw [hdrop]
      exact Nat.zero_le _
  next p hp =>
  have hpacket : s₁.packet = some p := by
    split at hp
    · simp at hp
    · exact hp
  rw [Packet.take_portion] at h
  simp only [Prod.mk.injEq] at h
  obtain ⟨rfl, rfl, -⟩ := h
  simp only [Stream.weight, hpacket, Option.map_some, Option.getD_some, Packet.readable,
    Stream.obtained, List.length_take, List.length_drop] at hfill ⊢
  omega

end Source.Ranged

theorem mem_of_forCall? {α : Type} {l : List α} {n : Nat} {a : α} (h : forCall? l n = some a) :
    a ∈ l :=
  List.mem_of_getElem? h

/-- A packet of a scripted reader comes out of the bytes that the reader has. -/
theorem ScriptedReader.readable_next {W : Type} {r r' : ScriptedReader} {w w' : W} {p : Packet}
    (h : r.next w = (.ok (some p), r', w')) : r'.rest.length + p.readable ≤ r.rest.length := by
  simp only [next] at h
  split at h
  · simp at h
  split at h
  · simp at h
  split at h
  · simp at h
  simp only [Prod.mk.injEq, Except.ok.injEq, Option.some.injEq] at h
  obtain ⟨rfl, rfl, -⟩ := h
  simp only [Packet.readable_ofBytes, List.length_take, List.length_drop]
  omega

theorem ScriptedReader.length_rest_next {W : Type} {r r' : ScriptedReader} {w w' : W}
    {x : Except Failure (Option Packet)} (h : r.next w = (x, r', w')) :
    r'.rest.length ≤ r.rest.length := by
  simp only [next] at h
  split at h
  · obtain rfl := (Prod.mk.inj (Prod.mk.inj h).2).1
    exact Nat.le_refl _
  split at h
  · obtain rfl := (Prod.mk.inj (Prod.mk.inj h).2).1
    exact Nat.le_refl _
  split at h
  · obtain rfl := (Prod.mk.inj (Prod.mk.inj h).2).1
    exact Nat.le_refl _
  · obtain rfl := (Prod.mk.inj (Prod.mk.inj h).2).1
    rw [List.length_drop]
    exact Nat.sub_le ..

namespace SourceScript

variable {W : Type} [Counting W] {s : SourceScript}

theorem length_rest_create (hs : ∀ r ∈ s.readers, r.unbounded = false) {offset length : UInt64}
    {r : ScriptedReader} {w w' : W} (h : s.create offset length w = (.ok r, w')) :
    r.rest.length ≤ length.toNat := by
  simp only [create] at h
  split at h
  · simp at h
  simp only [Prod.mk.injEq, Except.ok.injEq] at h
  obtain ⟨rfl, -⟩ := h
  have hbounded (n : Nat) : ((forCall? s.readers n).getD {}).unbounded = false := by
    cases hr : forCall? s.readers n with
    | none => rfl
    | some r => exact hs r (mem_of_forCall? hr)
  simp only [hbounded, Bool.false_eq_true, if_false]
  exact List.length_take_le ..

/-- A scripted source keeps to its ranges if its script never tells a reader to go beyond them. -/
def ranged (hs : ∀ r ∈ s.readers, r.unbounded = false) : (s.source (W := W)).Ranged where
  left r := r.rest.length
  left_next := ScriptedReader.readable_next
  left_create := length_rest_create hs
  left_le := ScriptedReader.length_rest_next

end SourceScript

namespace Stream

open Offset

variable {W R : Type} [Journaled W]

/-- A stream has no more at hand than is left in front of the declared end. -/
structure Stocked {src : Source W R} (k : src.Ranged) (length : UInt64) (s : Stream R) : Prop
    extends s.Within length where
  weight_le : s.weight k.toSupply ≤ length.toNat - s.position.toNat

section Stocked

variable {src : Source W R} {length : UInt64} {p : Stream (Numbered R) × Observed W} {op : Op}

/-- A read in sequence takes from what is at hand. -/
theorem Stocked.step_reads (k : src.Ranged) (hop : op.reads = true)
    (hp : Stocked k.observed length p.1) :
    p.1.position.toNat + (step src.observed op p).taken +
      (step src.observed op p).after.1.weight k.observed.toSupply ≤ length.toNat := by
  have hle := hp.position_le
  have hweight := hp.weight_le
  rcases reads_cases src.observed hop hp.tidy with
    ⟨hafter, htaken, -⟩ | ⟨n, x, -, -, hf, -, htaken⟩
  · rw [hafter, htaken]
    omega
  · have hfetch : obtained x + (step src.observed op p).after.1.weight k.observed.toSupply ≤
        length.toNat - p.1.position.toNat :=
      k.observed.weight_fetch hp.tidy (Nat.le_of_eq hp.toNat_rest) hweight hf
    rw [htaken]
    omega

theorem Stocked.step (hL : length.toNat < signedLimit) (k : src.Ranged)
    (hp : Stocked k.observed length p.1) :
    ¬(Stream.step src.observed op p).Overruns length ∧
      Stocked k.observed length (Stream.step src.observed op p).after.1 := by
  by_cases hop : op.reads = true
  · have htaken := hp.step_reads k hop
    have hfits : ¬(Stream.step src.observed op p).Overruns length := by
      rintro ⟨-, hlt⟩
      have hbefore : (Stream.step src.observed op p).before = p := rfl
      rw [hbefore] at hlt
      omega
    refine ⟨hfits, hp.toWithin.step_within hL src op hfits, ?_⟩
    rw [hp.toWithin.step_reads src hop (by omega)]
    omega
  · have hfits : ¬(Stream.step src.observed op p).Overruns length := fun h => hop h.1
    refine ⟨hfits, hp.toWithin.step_within hL src op hfits, ?_⟩
    rcases step_moves src.observed (by simpa using hop) p with hsame | ⟨hreader, hpacket⟩
    · rw [hsame]
      exact hp.weight_le
    · rw [weight, hreader, hpacket]
      exact Nat.zero_le _

end Stocked

theorem not_overruns_of_ranged {length : UInt64} (hL : length.toNat < signedLimit)
    {src : Source W R} (k : src.Ranged) (w : W) (block : UInt64) (ops : List Op) :
    ∀ st ∈ history src.observed ops (start block length, { inner := w }),
      ¬st.Overruns length := by
  refine forall_mem_history (I := fun p => Stocked k.observed length p.1)
    (fun op p hp => hp.step hL k) ⟨within_start, ?_⟩ ops
  exact Nat.zero_le _

/-- **When a stream stays within bounds.**  A run on a stream of a length below 2^63 keeps to the
bounds if and only if no read in sequence obtains more bytes than were left.  Over a source whose
readers keep to their ranges no read does, and the bounds hold through every run. -/
theorem bounded_history {length : UInt64} (hL : length.toNat < signedLimit) (src : Source W R)
    (w : W) (block : UInt64) (ops : List Op) :
    ((∀ st ∈ history src.observed ops (start block length, { inner := w }), st.Bounded length) ↔
      ∀ st ∈ history src.observed ops (start block length, { inner := w }),
        ¬st.Overruns length) ∧
    (Nonempty src.Ranged →
      ∀ st ∈ history src.observed ops (start block length, { inner := w }),
        st.Bounded length) := by
  have hiff := bounded_iff hL src w block ops
  exact ⟨hiff, fun ⟨k⟩ => hiff.2 (not_overruns_of_ranged hL k w block ops)⟩

theorem bounded_history_ranged :
    (6 : UInt64).toNat < signedLimit ∧
      ∀ st ∈ history (SourceScript.source (W := Site)
          { block := [1, 2, 3, 4, 5, 6, 7, 8, 9], readers := [{ sizes := [3, 0, 2] }] }).observed
          [.readByte, .skip 3, .readByte, .readByte, .seek 0, .readByte, .close]
          (start 1 6, { inner := {} }), st.Bounded 6 := by
  have hL : (6 : UInt64).toNat < signedLimit := by decide
  refine ⟨hL, (bounded_history hL _ _ _ _).2 ⟨SourceScript.ranged ?_⟩⟩
  decide

/-- A source whose readers deliver packets of four bytes for as long as there are any. -/
def unbounded : SourceScript where
  block := [1, 2, 3, 4, 5, 6, 7, 8, 9, 10]
  readers := [{ sizes := [4], unbounded := true }]

/-- Reads up to four bytes. -/
def readFour : Op := .read (some ⟨4, [0, 0, 0, 0]⟩) 0 4

/-- Two reads take a stream of length 6 to position 8, where two bytes less than nothing are left.
Passing over one byte then goes two back. -/
theorem not_bounded_of_unbounded :
    (run (unbounded.source (W := Site)).observed [readFour, readFour]
        (start 1 6, { inner := {} })).1.position = 8 ∧
      (run (unbounded.source (W := Site)).observed [readFour, readFour]
        (start 1 6, { inner := {} })).1.remaining = .ok (-2) ∧
      (step (unbounded.source (W := Site)).observed (.skip 1)
        (run (unbounded.source (W := Site)).observed [readFour, readFour]
          (start 1 6, { inner := {} }))).outcome.result = .ok (.amount (-2)) ∧
      (run (unbounded.source (W := Site)).observed [readFour, readFour, .skip 1]
        (start 1 6, { inner := {} })).1.position = 6 ∧
      ¬∀ st ∈ history (unbounded.source (W := Site)).observed [readFour, readFour, .skip 1]
        (start 1 6, { inner := {} }), st.Bounded 6 := by
  refine ⟨rfl, rfl, rfl, rfl, fun h => ?_⟩
  have hsecond := (h _ (List.mem_cons_of_mem _ List.mem_cons_self)).position
  exact absurd hsecond (by decide)

end Stream
end BlockAccess

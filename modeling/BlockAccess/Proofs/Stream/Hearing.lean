import BlockAccess.Proofs.Stream.Gathering

/-!
# What is heard in a read in sequence

A reader that is asked for a packet answers with one, which may be empty, or says that it is at its
end, or fails.  `answersIn` takes these answers out of what is seen of a source.  Nothing else that
a stream asks of its source has to do with them.

A read in sequence stops at the first packet that has bytes in it.  So what it hears is some empty
packets and at most one answer more (`Source.Heard`), and from that it follows how often its reader
is asked, and whether that is given up (`Source.Heard.tolerates`).
-/

namespace BlockAccess

variable {W R : Type}

/-! ## Answers -/

namespace Event

/-- What a reader answers that is asked for a packet: the size of one, or that there is none. -/
def answer? : Event → Option (Option Nat)
  | packet _ _ size => some (some size)
  | exhausted _ | packetFailed _ => some none
  | _ => none

/-- Whether it is seen that a source failed at what it was asked to do. -/
def fails : Event → Bool
  | created _ _ _ made => !made
  | packetFailed _ => true
  | readerClosed _ cleanly => !cleanly
  | _ => false

end Event

/-- The answers of the readers that were asked for packets. -/
def answersIn (es : List Event) : List (Option Nat) := es.filterMap Event.answer?

theorem answersIn_append (es es' : List Event) :
    answersIn (es ++ es') = answersIn es ++ answersIn es' := List.filterMap_append

/-- Too many empty packets come in a row. -/
def Wearies (as : List (Option Nat)) : Prop := List.replicate emptyPacketLimit (some 0) <:+: as

/-- What does not end in the repeated entry adds nothing to a repetition. -/
theorem infix_of_notMem {α : Type} {a : α} {n : Nat} {l t : List α} (ht : a ∉ t)
    (h : List.replicate (n + 1) a <:+: l ++ t) : List.replicate (n + 1) a <:+: l := by
  obtain ⟨before, after, heq⟩ := h
  rcases List.append_eq_append_iff.1 heq with ⟨u, hl, -⟩ | ⟨u, hl, hu⟩
  · exact ⟨before, u, hl.symm⟩
  -- the repetition reaches beyond `l` only if its last entry is in `t`
  rcases List.eq_nil_or_concat u with rfl | ⟨v, b, rfl⟩
  · exact ⟨before, [], by rw [List.append_nil, hl, List.append_nil]⟩
  · rw [List.replicate_succ', ← List.append_assoc, List.concat_eq_append, ← List.append_assoc] at hl
    obtain rfl : a = b := List.singleton_inj.1 (List.append_inj_right' hl rfl)
    refine absurd ?_ ht
    rw [hu, List.concat_eq_append]
    exact List.mem_append_left _ (List.mem_append_right _ (List.mem_singleton_self a))

/-! ## What is told -/

/-- The failure that is told, if it is one. -/
def failureOf {α : Type} : Except Failure α → Option Failure
  | .error f => some f
  | .ok _ => none

@[simp] theorem failureOf_ok {α : Type} (a : α) : failureOf (.ok a) = none := rfl

@[simp] theorem failureOf_error {α : Type} (f : Failure) :
    failureOf (.error f : Except Failure α) = some f := rfl

theorem failureOf_eq_some {α : Type} {x : Except Failure α} {f : Failure} :
    failureOf x = some f ↔ x = .error f := by
  cases x <;> simp [failureOf]

theorem failureOf_map {α β : Type} (g : α → β) (x : Except Failure α) :
    failureOf (x.map g) = failureOf x := by
  cases x <;> rfl

namespace Source

/-- A source failed in the words in which a read gives up its reader. -/
def Imitates (src : Source W R) (block : UInt64) (es : List Event) : Prop :=
  ∃ e ∈ es, e.fails = true ∧ src.Blames block (.transport (.emptyPackets block)) e

/-- What a read tells, as against what was seen during it: its reader was given up if there were too
many empty packets in a row, and only then, unless the source failed in the same words. -/
structure Tolerates (src : Source W R) (block : UInt64) (es : List Event) (told : Option Failure) :
    Prop where
  gives_up : Wearies (answersIn es) → told = some (.transport (.emptyPackets block))
  gave_up : told = some (.transport (.emptyPackets block)) →
    Wearies (answersIn es) ∨ src.Imitates block es

/-- No reader was asked. -/
theorem Tolerates.quiet {src : Source W R} {block : UInt64} {es : List Event}
    {told : Option Failure} (h : answersIn es = [])
    (htold : told = some (.transport (.emptyPackets block)) → src.Imitates block es) :
    src.Tolerates block es told where
  gives_up hwearies := by
    rw [Wearies, h] at hwearies
    exact absurd (List.infix_nil.1 hwearies) (by decide)
  gave_up hx := .inr (htold hx)

/-- What is heard in a read in sequence that puts up with fewer than `budget` empty packets. -/
inductive Heard (src : Source W R) (block : UInt64) (budget : Nat) :
    List Event → Option Failure → Prop
  /-- All packets were empty. -/
  | tired {es : List Event} (h : answersIn es = List.replicate budget (some 0)) :
    Heard src block budget es (some (.transport (.emptyPackets block)))
  /-- Some packets were empty, and there may have been one answer more. -/
  | content {es : List Event} {told : Option Failure} {k : Nat} {as : List (Option Nat)}
    (h : answersIn es = List.replicate k (some 0) ++ as) (hk : k < budget) (hlast : as.length ≤ 1)
    (has : some 0 ∉ as)
    (htold : told = some (.transport (.emptyPackets block)) → src.Imitates block es) :
    Heard src block budget es told

variable {src : Source W R} {block : UInt64} {budget : Nat} {es es' : List Event}
  {told told' : Option Failure}

theorem Imitates.left (h : src.Imitates block es) (es' : List Event) :
    src.Imitates block (es ++ es') := by
  obtain ⟨e, he, hfails⟩ := h
  exact ⟨e, List.mem_append_left _ he, hfails⟩

theorem Imitates.right (es : List Event) (h : src.Imitates block es') :
    src.Imitates block (es ++ es') := by
  obtain ⟨e, he, hfails⟩ := h
  exact ⟨e, List.mem_append_right _ he, hfails⟩

namespace Heard

/-- No reader was asked. -/
theorem quiet (hbudget : 0 < budget) (h : answersIn es = [])
    (htold : told = some (.transport (.emptyPackets block)) → src.Imitates block es) :
    src.Heard block budget es told :=
  .content (k := 0) (h.trans (List.append_nil []).symm) hbudget (Nat.zero_le _) List.not_mem_nil htold

/-- Before it, no reader was asked. -/
theorem before (hes : answersIn es = []) (h : src.Heard block budget es' told) :
    src.Heard block budget (es ++ es') told := by
  have hall : answersIn (es ++ es') = answersIn es' := by
    rw [answersIn_append, hes, List.nil_append]
  cases h with
  | tired h => exact .tired (hall.trans h)
  | content h hk hlast has htold =>
    exact .content (hall.trans h) hk hlast has fun hx => .right es (htold hx)

/-- After it ended well, no reader is asked. -/
theorem after (h : src.Heard block budget es none) (hes' : answersIn es' = [])
    (htold : told = some (.transport (.emptyPackets block)) → src.Imitates block es') :
    src.Heard block budget (es ++ es') told := by
  cases h with
  | content h hk hlast has _ =>
    refine .content ?_ hk hlast has fun hx => .right es (htold hx)
    rw [answersIn_append, hes', List.append_nil, h]

/-- Before it there was one empty packet more. -/
theorem empty (hes : answersIn es = [some 0]) (h : src.Heard block budget es' told) :
    src.Heard block (budget + 1) (es ++ es') told := by
  have hall : answersIn (es ++ es') = some 0 :: answersIn es' := by
    rw [answersIn_append, hes]
    rfl
  cases h with
  | tired h => exact .tired (by rw [hall, h, List.replicate_succ])
  | @content _ k as h hk hlast has htold =>
    refine .content (k := k + 1) ?_ (Nat.succ_lt_succ hk) hlast has fun hx => .right es (htold hx)
    rw [hall, h, List.replicate_succ, List.cons_append]

/-- The reader was asked once for every empty packet, and at most once more. -/
theorem length_le (h : src.Heard block budget es told) : (answersIn es).length ≤ budget := by
  cases h with
  | tired h => exact Nat.le_of_eq ((congrArg List.length h).trans List.length_replicate)
  | content h hk hlast _ _ =>
    rw [h, List.length_append, List.length_replicate]
    omega

theorem tolerates (h : src.Heard block emptyPacketLimit es told) :
    src.Tolerates block es told := by
  cases h with
  | tired h =>
    have hwearies : Wearies (answersIn es) := h ▸ List.infix_rfl
    exact ⟨fun _ => rfl, fun _ => .inl hwearies⟩
  | @content _ k as h hk _ has htold =>
    constructor
    case gives_up =>
      -- there are fewer empty packets than it takes
      intro hwearies
      rw [Wearies, h] at hwearies
      have hfew := (infix_of_notMem has hwearies).length_le
      rw [List.length_replicate, List.length_replicate] at hfew
      exact absurd hfew (Nat.not_le.2 hk)
    case gave_up =>
      intro hx
      exact .inr (htold hx)

end Heard

/-! ## Reads in sequence -/

variable [Journaled W] {o o' : Observed W} {r r' : Numbered R}

theorem heard_pull {x : Except Failure (Option Packet)}
    (h : src.observed.pull block budget r o = (x, r', o')) :
    ∃ es, o.Saw es o' ∧ src.Heard block budget es (failureOf x) := by
  induction budget generalizing r o with
  | zero =>
    simp only [pull, Prod.mk.injEq] at h
    obtain ⟨rfl, -, rfl⟩ := h
    exact ⟨[], .nothing o, .tired rfl⟩
  | succ budget ih =>
    unfold pull at h
    split at h
    · next p r₁ o₁ hnext =>
      split at h
      · next hnil =>
        have hempty : p.readable = 0 := by
          rw [Packet.readable, List.isEmpty_iff.1 hnil, List.length_nil]
        obtain ⟨es, hes, hheard⟩ := ih h
        exact ⟨_, (saw_empty hempty _ hnext).append hes, hheard.empty rfl⟩
      · next hne =>
        simp only [Prod.mk.injEq] at h
        obtain ⟨rfl, -, rfl⟩ := h
        refine ⟨_, (saw_handed hnext).2, .content (k := 0) rfl (Nat.succ_pos _) (Nat.le_refl 1) ?_
          (by simp)⟩
        intro hzero
        have hempty : 0 = p.readable := Option.some_inj.1 (List.mem_singleton.1 hzero)
        exact hne (List.isEmpty_iff.2 (List.length_eq_zero_iff.1 hempty.symm))
    · next x r₁ o₁ hnot hnext =>
      simp only [Prod.mk.injEq] at h
      obtain ⟨rfl, -, rfl⟩ := h
      rcases x with f | _ | p
      · obtain ⟨-, hsaw, hblames⟩ := saw_failed block hnext
        refine ⟨_, hsaw, .content (k := 0) rfl (Nat.succ_pos _) (Nat.le_refl 1) (by simp) ?_⟩
        intro hx
        rw [Option.some_inj.1 hx] at hblames
        exact ⟨_, List.mem_singleton_self _, rfl, hblames⟩
      · exact ⟨_, (saw_exhausted hnext).2, .content (k := 0) rfl (Nat.succ_pos _) (Nat.le_refl 1)
          (by simp) (by simp)⟩
      · exact absurd rfl (hnot p)

end Source

namespace Stream

open Source (Heard)

variable {src : Source W R} {o o' : Observed W} {s s' : Stream (Numbered R)}

theorem quiet_releasePacket (src : Source W R) (s : Stream (Numbered R)) (o : Observed W) :
    ∃ es, o.Saw es (s.releasePacket src.observed o).2 ∧ answersIn es = [] := by
  unfold releasePacket
  split
  · exact ⟨[], .nothing o, rfl⟩
  · next p _ => exact ⟨_, src.saw_release p o, rfl⟩

/-- Giving up a reader asks for no packet. -/
theorem quiet_dropReader (block : UInt64) {x : Except Failure Unit}
    (h : s.dropReader src.observed o = (x, s', o')) : ∃ es, o.Saw es o' ∧ answersIn es = [] ∧
      (failureOf x = some (.transport (.emptyPackets block)) → src.Imitates block es) := by
  obtain ⟨es, hes, hquiet⟩ := quiet_releasePacket src s o
  cases hr : s.reader with
  | none =>
    rw [dropReader_of_none hr] at h
    simp only [Prod.mk.injEq] at h
    obtain ⟨rfl, -, rfl⟩ := h
    exact ⟨es, hes, hquiet, (by simp)⟩
  | some r =>
    rcases hc : src.observed.close r (s.releasePacket src.observed o).2 with ⟨y, r', o₁⟩
    rw [dropReader_of_some hr hc] at h
    simp only [Prod.mk.injEq] at h
    obtain ⟨rfl, -, rfl⟩ := h
    obtain ⟨hsaw, hblames⟩ := Source.saw_close block hc
    refine ⟨_, hes.append hsaw, by rw [answersIn_append, hquiet]; rfl, fun hx => .right es ?_⟩
    rcases y with f | _
    · obtain rfl := Option.some_inj.1 hx
      exact ⟨_, List.mem_singleton_self _, rfl, hblames _ rfl⟩
    · simp [failureOf] at hx

variable [Journaled W]

/-- Seeing to it that there is a reader asks for no packet. -/
theorem quiet_withReader {x : Except Failure (Numbered R)}
    (h : s.withReader src.observed o = (x, s', o')) : ∃ es, o.Saw es o' ∧ answersIn es = [] ∧
      (failureOf x = some (.transport (.emptyPackets s.block)) → src.Imitates s.block es) := by
  unfold withReader at h
  split at h
  · simp only [Prod.mk.injEq] at h
    obtain ⟨rfl, -, rfl⟩ := h
    exact ⟨[], .nothing o, rfl, (by simp)⟩
  split at h
  · next hc =>
    simp only [Prod.mk.injEq] at h
    obtain ⟨rfl, -, rfl⟩ := h
    obtain ⟨hsaw, hblames⟩ := Source.saw_refused s.block hc
    refine ⟨_, (Observed.saw_note o _).append hsaw, rfl, fun hx => ?_⟩
    rw [Option.some_inj.1 hx] at hblames
    exact ⟨_, List.mem_singleton_self _, rfl, hblames⟩
  · next hc =>
    simp only [Prod.mk.injEq] at h
    obtain ⟨rfl, -, rfl⟩ := h
    exact ⟨_, (Observed.saw_note o _).append (Source.saw_made hc).2, rfl,
      (by simp)⟩

theorem heard_fill {x : Except Failure Unit} (h : s.fill src.observed o = (x, s', o')) :
    ∃ es, o.Saw es o' ∧ src.Heard s.block emptyPacketLimit es (failureOf x) := by
  unfold fill at h
  split at h
  · next f s₁ o₁ hreader =>
    simp only [Prod.mk.injEq] at h
    obtain ⟨rfl, -, rfl⟩ := h
    obtain ⟨es, hes, hquiet, htold⟩ := quiet_withReader hreader
    exact ⟨es, hes, .quiet (by decide) hquiet htold⟩
  next r s₁ o₁ hreader =>
  obtain ⟨hs₁, -⟩ := withReader_snd hreader
  obtain ⟨es, hes, hquiet, -⟩ := quiet_withReader hreader
  split at h
  · simp only [Prod.mk.injEq] at h
    obtain ⟨rfl, -, rfl⟩ := h
    exact ⟨es, hes, .quiet (by decide) hquiet (by simp)⟩
  obtain ⟨es', hes', hquiet'⟩ := quiet_releasePacket src s₁ o₁
  have hblock : (s₁.releasePacket src.observed o₁).1.block = s.block := by
    rw [releasePacket_fst, hs₁]
  have hboth : answersIn (es ++ es') = [] := by rw [answersIn_append, hquiet, hquiet']; rfl
  split at h
  next s₂ o₂ h₂ =>
  rw [h₂] at hes' hblock
  dsimp only at hblock
  split at h
  all_goals
    next hpull =>
    simp only [Prod.mk.injEq] at h
    obtain ⟨rfl, -, rfl⟩ := h
    rw [hblock] at hpull
    obtain ⟨es'', hes'', hheard⟩ := Source.heard_pull hpull
    exact ⟨_, (hes.append hes').append hes'', .before hboth hheard⟩

/-- **A read in sequence hears some empty packets and at most one answer more.** -/
theorem heard_fetch {n : UInt64} {x : Except Failure (Option Bytes)}
    (h : s.fetch src.observed n o = (x, s', o')) :
    ∃ es, o.Saw es o' ∧ src.Heard s.block emptyPacketLimit es (failureOf x) := by
  unfold fetch at h
  split at h
  · next f s₁ o₁ hfill =>
    simp only [Prod.mk.injEq] at h
    obtain ⟨rfl, -, rfl⟩ := h
    exact heard_fill hfill
  next s₁ o₁ hfill =>
  obtain ⟨es, hes, hheard⟩ := heard_fill hfill
  split at h
  · split at h
    all_goals
      next hdrop =>
      simp only [Prod.mk.injEq] at h
      obtain ⟨rfl, -, rfl⟩ := h
      obtain ⟨es', hes', hquiet, htold⟩ := quiet_dropReader s.block hdrop
      exact ⟨_, hes.append hes', hheard.after hquiet htold⟩
  · next p _ =>
    rw [Packet.take_portion] at h
    simp only [Prod.mk.injEq] at h
    obtain ⟨rfl, -, rfl⟩ := h
    exact ⟨es, hes, hheard⟩

theorem heard_readSome {n : UInt64} {x : Except Failure (Option Bytes)}
    (h : s.readSome src.observed n o = (x, s', o')) :
    ∃ es, o.Saw es o' ∧ src.Heard s.block emptyPacketLimit es (failureOf x) := by
  unfold readSome at h
  split at h
  · simp only [Prod.mk.injEq] at h
    obtain ⟨rfl, -, rfl⟩ := h
    exact ⟨[], .nothing o, .quiet (by decide) rfl (by simp)⟩
  split at h
  · simp only [Prod.mk.injEq] at h
    obtain ⟨rfl, -, rfl⟩ := h
    exact ⟨[], .nothing o, .quiet (by decide) rfl (by simp)⟩
  · exact heard_fetch h

end Stream

end BlockAccess

import BlockAccess.Proofs.Channel.Tapped
import BlockAccess.Proofs.Source.Remote

/-!
# Closing a remote reader

A reader that is closed before the range is over takes its request back and passes over what is
under way.  `Drained` lists the two ways in which that can end, and `Closing` the ways in which the
first close can go as a whole, each with what is seen of it on the channel.  Before that, a reader
waits for one response each time it is asked for a packet (`next_listens`).
-/

namespace BlockAccess

open Wire (Request Response Status)

namespace RemoteReader

variable {W C : Type} {channels : Channel W C} {n : Nat} {r : Request} {c d : C} {w : W}

/-! ## Passing over what is under way -/

/-- How passing over what is under way ends, what is seen meanwhile, and the channel afterwards. -/
inductive Drained (channels : Channel W C) (n : Nat) (c : C) (w : W) :
    Except Failure Unit → List Event → C → Prop
  /-- Packets come, and then something that is none. -/
  | whole {rs : List Response} {last : Response} {d : C} {v : W}
    (h : channels.Delivers c w (rs ++ [last]) d v) (hrs : ∀ p ∈ rs, p.isPacket = true)
    (hlast : last.isPacket = false) :
    Drained channels n c w (.ok ()) ((rs ++ [last]).map (.heard n)) d
  /-- Packets come, and then nothing is received. -/
  | cut {rs : List Response} {d d' : C} {v v' : W} {f : Failure}
    (h : channels.Delivers c w rs d v) (hrs : ∀ p ∈ rs, p.isPacket = true)
    (hf : channels.receive d v = (.error f, d', v')) :
    Drained channels n c w (.error f) (rs.map (.heard n) ++ [.receiveFailed n]) d'

namespace Drained

variable {x : Except Failure Unit} {es : List Event}

theorem cons {c' : C} {w' : W} {p : Response} (hr : channels.receive c w = (.ok p, c', w'))
    (hp : p.isPacket = true) (h : Drained channels n c' w' x es d) :
    Drained channels n c w x (.heard n p :: es) d := by
  cases h with
  | @whole rs last _ _ h hrs hlast =>
    show Drained channels n c w (.ok ()) ((p :: rs ++ [last]).map (.heard n)) d
    exact .whole (.cons hr h) (List.forall_mem_cons.2 ⟨hp, hrs⟩) hlast
  | @cut rs _ _ _ _ f h hrs hf =>
    show Drained channels n c w (.error f) ((p :: rs).map (.heard n) ++ [.receiveFailed n]) d
    exact .cut (.cons hr h) (List.forall_mem_cons.2 ⟨hp, hrs⟩) hf

theorem listens (h : Drained channels n c w x es d) : ∀ e ∈ es, e.listens = true := by
  intro e he
  cases h with
  | whole =>
    obtain ⟨p, -, rfl⟩ := List.mem_map.1 he
    rfl
  | cut =>
    rcases List.mem_append.1 he with he | he
    · obtain ⟨p, -, rfl⟩ := List.mem_map.1 he
      rfl
    · rw [List.mem_singleton.1 he]
      rfl

/-- What ends the range comes last. -/
theorem pairwise (h : Drained channels n c w x es d) : es.Pairwise fun e _ => e.ends = false := by
  have hpackets {rs : List Response} (hrs : ∀ p ∈ rs, p.isPacket = true) :
      ∀ e ∈ rs.map (Event.heard n), e.ends = false := by
    intro e he
    obtain ⟨p, hp, rfl⟩ := List.mem_map.1 he
    rw [Event.ends_heard, hrs p hp]
    rfl
  cases h with
  | whole _ hrs =>
    rw [List.map_append, List.pairwise_append]
    exact ⟨List.pairwise_of_forall_mem_list fun e he _ _ => hpackets hrs e he,
      List.pairwise_singleton .., fun e he _ _ => hpackets hrs e he⟩
  | cut _ hrs =>
    rw [List.pairwise_append]
    exact ⟨List.pairwise_of_forall_mem_list fun e he _ _ => hpackets hrs e he,
      List.pairwise_singleton .., fun e he _ _ => hpackets hrs e he⟩

/-- No more is waited for than the channel has, and once in vain. -/
theorem length_le (h : Drained channels n c w x es d) : es.length ≤ channels.pending c + 1 := by
  cases h with
  | whole h =>
    have hle := h.length_le
    rw [List.length_map]
    omega
  | cut h =>
    have hle := h.length_le
    rw [List.length_append, List.length_map, List.length_singleton]
    omega

end Drained

/-! ## Closing -/

/-- How the first close of a reader goes, and what is seen meanwhile.  The range is over, or it is
not and the request is taken back. -/
inductive Closing (channels : Channel W C) (n : Nat) (r : Request) (c : C) (w : W) :
    (ended : Bool) → Except Failure Unit → List Event → Prop
  | finished {x : Except Failure Unit} {d : C} {v : W} (hc : channels.close c w = (x, d, v)) :
    Closing channels n r c w true x [.channelClosed n]
  | unsent {f : Failure} {d : C} {v : W}
    (hs : channels.send { r with cancel := true } c w = (.error f, d, v)) :
    Closing channels n r c w false (.error f) [.sent n { r with cancel := true }]
  | cut {d e : C} {v : W} {f : Failure} {es : List Event}
    (hs : channels.send { r with cancel := true } c w = (.ok (), d, v))
    (hd : Drained channels n d v (.error f) es e) :
    Closing channels n r c w false (.error f) (.sent n { r with cancel := true } :: es)
  | whole {d e e' : C} {v u u' : W} {es : List Event} {x : Except Failure Unit}
    (hs : channels.send { r with cancel := true } c w = (.ok (), d, v))
    (hd : Drained channels n d v (.ok ()) es e) (hc : channels.close e u = (x, e', u')) :
    Closing channels n r c w false x
      (.sent n { r with cancel := true } :: (es ++ [.channelClosed n]))

namespace Closing

variable {ended : Bool} {x : Except Failure Unit} {es : List Event}

/-- The request is taken back exactly if the range is not over. -/
theorem filterMap_eq (h : Closing channels n r c w ended x es) :
    es.filterMap Event.request? = if ended then [] else [{ r with cancel := true }] := by
  cases h with
  | finished => rfl
  | unsent => rfl
  | cut _ hd =>
    rw [List.filterMap_cons, Event.filterMap_of_listens hd.listens]
    rfl
  | whole _ hd =>
    rw [List.filterMap_cons, List.filterMap_append, Event.filterMap_of_listens hd.listens]
    rfl

/-- What is waited for is waited for before the range is over. -/
theorem pairwise (h : Closing channels n r c w ended x es) :
    es.Pairwise fun e e' => e.ends = true → e'.listens = false := by
  cases h with
  | finished => exact List.pairwise_singleton ..
  | unsent => exact List.pairwise_singleton ..
  | cut _ hd =>
    exact List.pairwise_cons.2
      ⟨fun _ _ he => by simp [Event.ends] at he, Event.silent_of_pairwise hd.pairwise⟩
  | whole _ hd =>
    refine List.pairwise_cons.2 ⟨fun _ _ he => by simp [Event.ends] at he, ?_⟩
    rw [List.pairwise_append]
    refine ⟨Event.silent_of_pairwise hd.pairwise, List.pairwise_singleton ..,
      fun e _ e' he' _ => ?_⟩
    rw [List.mem_singleton.1 he']
    rfl

theorem listens_eq (h : Closing channels n r c w true x es) : ∀ e ∈ es, e.listens = false := by
  intro e he
  cases h
  rw [List.mem_singleton.1 he]
  rfl

/-- A close that ends well has closed the channel once. -/
theorem countP_eq (h : Closing channels n r c w ended x es) (hx : x = .ok ()) :
    es.countP Event.hangsUp = 1 := by
  cases h with
  | finished => rfl
  | unsent => simp at hx
  | cut => simp at hx
  | whole _ hd =>
    rw [List.countP_cons_of_neg (by simp [Event.hangsUp]), List.countP_append,
      Event.countP_of_listens hd.listens]
    rfl

/-- Passing over what is under way comes to an end. -/
theorem countP_le (h : Closing channels n r c w ended x es) {d : C} {v : W}
    (hs : channels.send { r with cancel := true } c w = (.ok (), d, v)) :
    es.countP Event.listens ≤ channels.pending d + 1 := by
  cases h with
  | finished => exact Nat.zero_le _
  | unsent => exact Nat.zero_le _
  | cut hs' hd =>
    rw [hs] at hs'
    simp only [Prod.mk.injEq, true_and] at hs'
    obtain ⟨rfl, rfl⟩ := hs'
    rw [List.countP_cons_of_neg (by simp [Event.listens])]
    exact Nat.le_trans List.countP_le_length hd.length_le
  | whole hs' hd =>
    rw [hs] at hs'
    simp only [Prod.mk.injEq, true_and] at hs'
    obtain ⟨rfl, rfl⟩ := hs'
    rw [List.countP_cons_of_neg (by simp [Event.listens]), List.countP_append]
    exact Nat.le_trans List.countP_le_length hd.length_le

end Closing

/-! ## Single calls -/

variable [Journaled W]

theorem drain_of_failed {w' : W} {f : Failure} {block : UInt64}
    (h : channels.receive c w = (.error f, d, w')) :
    drain channels block c w = (.error f, d, w') := by
  rw [drain]
  split
  · next h' =>
    rw [h] at h'
    simp only [Prod.mk.injEq, Except.error.injEq] at h'
    obtain ⟨rfl, rfl, rfl⟩ := h'
    rfl
  · next h' =>
    rw [h] at h'
    simp at h'

theorem drained (channels : Channel W C) (n : Nat) (block : UInt64) (c : C) (o : Observed W) :
    ∃ x d o' es, drain (channels.tapped n) block c o = (x, d, o') ∧ o.Saw es o' ∧
      Drained channels n c o.inner x es d := by
  rcases hr : channels.receive c o.inner with ⟨f | p, c', w⟩
  · rw [drain_of_failed (Channel.receive_tapped_failed hr)]
    have hcut : Drained channels n c o.inner (.error f)
        ([].map (.heard n) ++ [.receiveFailed n]) c' :=
      .cut (.nil c o.inner) (by simp) hr
    exact ⟨_, _, _, _, rfl, o.saw_see w _, hcut⟩
  rw [drain_of_receive (Channel.receive_tapped hr)]
  have hseen := o.saw_see w (.heard n p)
  by_cases hp : p.isPacket = true
  · have hless := channels.pending_receive hr
    obtain ⟨x, d, o', es, hdrain, hsaw, h⟩ :=
      drained channels n block c' ((o.withInner w).see (.heard n p))
    rw [if_pos hp]
    exact ⟨x, d, o', _, hdrain, hseen.append hsaw, h.cons hr hp⟩
  · have hlast : p.isPacket = false := by simpa using hp
    have hwhole : Drained channels n c o.inner (.ok ()) (([] ++ [p]).map (.heard n)) c' :=
      .whole (.cons hr (.nil c' w)) (by simp) hlast
    rw [if_neg hp]
    split
    · exact ⟨_, _, _, _, rfl, hseen, hwhole⟩
    · exact ⟨_, _, _, _, rfl, hseen.append (Observed.saw_note _ _), by simpa using hwhole⟩
termination_by channels.pending c

/-- A reader that is done or was closed has nothing more to give, and does nothing. -/
theorem next_quiet {x : RemoteReader C} (h : x.done = true ∨ x.channel = none) :
    next channels x w = (.ok none, x, w) := by
  unfold next
  rcases h with h | h
  · rw [h]
  · rw [h]
    cases x.done <;> rfl

theorem close_quiet {x : RemoteReader C} (h : x.channel = none) :
    close channels x w = (.ok (), x, w) := by
  unfold close
  rw [h]

/-- A reader that is not done waits for one response, and is done if that ends the range. -/
theorem next_listens (channels : Channel W C) (n : Nat) {x : RemoteReader C} (o : Observed W)
    (hc : x.channel = some c) (hd : x.done = false) : ∃ y x' o' e d,
      next (channels.tapped n) x o = (y, x', o') ∧
      x'.channel = some d ∧ x'.request = x.request ∧ o.Saw [e] o' ∧ e.listens = true ∧
      x'.done = e.ends := by
  unfold next
  rw [hd, hc]
  dsimp only
  rcases hr : channels.receive c o.inner with ⟨f | p, d, w⟩
  · rw [Channel.receive_tapped_failed hr]
    exact ⟨_, _, _, _, d, rfl, rfl, rfl, o.saw_see w _, rfl, rfl⟩
  rw [Channel.receive_tapped hr]
  have hseen := o.saw_see w (.heard n p)
  dsimp only
  by_cases hstatus : p.status = Status.ok
  · rw [if_neg (not_not_intro hstatus)]
    cases hdata : p.data with
    | none =>
      refine ⟨_, _, _, _, d, rfl, rfl, rfl, hseen, rfl, ?_⟩
      rw [Event.ends_heard, Response.isPacket, hdata]
      simp
    | some b =>
      have hends : (Event.heard n p).ends = false := by
        rw [Event.ends_heard, Response.isPacket, hdata, hstatus]
        rfl
      dsimp only
      split
      · exact ⟨_, _, _, _, d, rfl, rfl, rfl, hseen, rfl, hends.symm⟩
      · exact ⟨_, _, _, _, d, rfl, rfl, rfl, hseen, rfl, hends.symm⟩
  · rw [if_pos hstatus]
    refine ⟨_, _, _, _, d, rfl, rfl, rfl, hseen.append (Observed.saw_note _ _), rfl, ?_⟩
    rw [Event.ends_heard, Response.isPacket]
    simp [hstatus]

/-- Closing a reader that has its channel goes in one of the ways listed, and takes the channel
away. -/
theorem close_closing (channels : Channel W C) (n : Nat) {x : RemoteReader C} (o : Observed W)
    (hc : x.channel = some c) : ∃ y x' o' es,
      close (channels.tapped n) x o = (y, x', o') ∧ x'.channel = none ∧ o.Saw es o' ∧
      Closing channels n x.request c o.inner x.done y es := by
  unfold close
  rw [hc]
  by_cases hdone : x.done = true
  · rcases hclose : channels.close c o.inner with ⟨y, d, w⟩
    simp only [hdone, if_true, Channel.close_tapped hclose]
    exact ⟨y, _, _, _, rfl, rfl, o.saw_see w _, .finished hclose⟩
  have hdone : x.done = false := by simpa using hdone
  simp only [hdone, Bool.false_eq_true, if_false]
  unfold cancel
  rcases hs : channels.send { x.request with cancel := true } c o.inner with ⟨f | ⟨⟩, d, w⟩
  · rw [Channel.send_tapped hs]
    exact ⟨_, _, _, _, rfl, rfl, o.saw_see w _, .unsent hs⟩
  have hsent := o.saw_see w (.sent n { x.request with cancel := true })
  rw [Channel.send_tapped hs]
  dsimp only
  obtain ⟨y, e, o₁, es, hdrain, hsaw, h⟩ := drained channels n x.request.blockId d
    ((o.withInner w).see (.sent n { x.request with cancel := true }))
  rw [hdrain]
  cases y with
  | error f => exact ⟨_, _, _, _, rfl, rfl, hsent.append hsaw, .cut hs h⟩
  | ok =>
    rcases hclose : channels.close e o₁.inner with ⟨y, e', v⟩
    simp only [Channel.close_tapped hclose]
    exact ⟨y, _, _, _, rfl, rfl, hsent.append (hsaw.append (o₁.saw_see v _)), .whole hs h hclose⟩

end RemoteReader

end BlockAccess

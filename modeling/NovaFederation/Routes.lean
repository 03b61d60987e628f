import NovaFederation.Phases
import NovaFederation.Clusters

/-!
# Who announces an address

One more fold of a trace: for each cluster and prefix, the next hop that the cluster announces it
with. `announce` and `withdraw` act on the destination, where the engine runs; the agent of a
peer acts on its own cluster. A call that raises, or an agent that reports a failure, may have
done its work all the same, so the fold is relative to the calls that took effect. At first the
source announces everything, with a next hop of its own that nothing here depends on.
-/

namespace NovaFederation
open History Coroutine
variable {h pre post : Trace} {pfx : String} {hop : Option String} {prefixes : List String}
  {e : CallEvent} {eff : Effects}

def acknowledged : CallEvent → Bool
  | ⟨.announceIP _ _, .ok response⟩ => response.success
  | ⟨.withdrawIP _ _, .ok response⟩ => response.success
  | ⟨_, reply⟩ => reply.isOk

/-- The calls that took effect: those that were acknowledged, and maybe others. -/
structure Effects where
  took : CallEvent → Bool
  of_acknowledged : ∀ e, acknowledged e = true → took e = true

namespace Effects

def atomic : Effects := ⟨acknowledged, fun _ => id⟩

variable {W : Type} (eff : Effects) (act : W → Call → W)

def world (w : W) (h : Trace) : W :=
  replay (fun w e => if eff.took e then act w e.call else w) w h

@[simp] theorem world_nil (w : W) : eff.world act w [] = w := rfl

theorem world_snoc (w : W) (h : Trace) (e : CallEvent) :
    eff.world act w (h ++ [e]) =
      if eff.took e then act (eff.world act w h) e.call else eff.world act w h := by
  rw [world, replay_append]
  rfl

end Effects

/-- The next hop under which a cluster announces a prefix. -/
abbrev Routes := Side → String → Option (Option String)

namespace Routes

def initial : Routes := fun side _ => if side = .source then some (some "") else none

def set (w : Routes) (side : Side) (pfx : String) (route : Option (Option String)) : Routes :=
  fun side' pfx' => if side' = side ∧ pfx' = pfx then route else w side' pfx'

/-- `AnnounceIP` is called without a next hop. -/
def act (w : Routes) : Call → Routes
  | .announce route => w.set .dest route.pfx (some route.nextHop)
  | .withdraw pfx => w.set .dest pfx none
  | .announceIP peer pfx => w.set peer pfx (some (some ""))
  | .withdrawIP peer pfx => w.set peer pfx none
  | _ => w

theorem set_same (w : Routes) (side : Side) (pfx : String) (route : Option (Option String)) :
    w.set side pfx route side pfx = route := by
  simp [set]

theorem set_other {w : Routes} {side side' : Side} {pfx pfx' : String}
    {route : Option (Option String)} (hne : ¬ (side' = side ∧ pfx' = pfx)) :
    w.set side pfx route side' pfx' = w side' pfx' := if_neg hne

/-- The call is about the prefix on the cluster. -/
def Concerns (side : Side) (pfx : String) : Call → Prop
  | .announce route => side = .dest ∧ pfx = route.pfx
  | .withdraw p => side = .dest ∧ pfx = p
  | .announceIP peer p => side = peer ∧ pfx = p
  | .withdrawIP peer p => side = peer ∧ pfx = p
  | _ => False

theorem act_other {side : Side} {c : Call} (hc : ¬ Concerns side pfx c) (w : Routes) :
    w.act c side pfx = w side pfx := by
  cases c with
  | announce route => exact set_other hc
  | withdraw p => exact set_other hc
  | announceIP peer p => exact set_other hc
  | withdrawIP peer p => exact set_other hc
  | _ => rfl

end Routes

def routes (eff : Effects) (h : Trace) : Routes := eff.world Routes.act .initial h

theorem routes_took (ht : eff.took e = true) :
    routes eff (h ++ [e]) = (routes eff h).act e.call := by
  rw [routes, Effects.world_snoc, if_pos ht]
  rfl

theorem routes_other {side : Side}
    (hc : eff.took e = true → ¬ Routes.Concerns side pfx e.call) :
    routes eff (h ++ [e]) side pfx = routes eff h side pfx := by
  rw [routes, Effects.world_snoc]
  split_ifs with ht
  · exact Routes.act_other (hc ht) _
  · rfl

def SourceWithdrew (eff : Effects) (pfx : String) (e : CallEvent) : Prop :=
  e.call = .withdrawIP .source pfx ∧ eff.took e = true

instance (eff : Effects) (pfx : String) : DecidablePred (SourceWithdrew eff pfx) :=
  fun _ => inferInstanceAs (Decidable (_ ∧ _))

def WithdrawAsked (pfx : String) (e : CallEvent) : Prop := e.call = .withdrawIP .source pfx

def AnnounceFailed (e : CallEvent) : Prop := ∃ route x, e = ⟨.announce route, .error x⟩

def isAnnounceFailed : CallEvent → Bool
  | ⟨.announce _, .error _⟩ => true
  | _ => false

theorem isAnnounceFailed_iff : isAnnounceFailed e = true ↔ AnnounceFailed e := by
  unfold isAnnounceFailed
  split
  · exact iff_of_true rfl ⟨_, _, rfl⟩
  · next hno =>
    refine iff_of_false (by simp) ?_
    rintro ⟨route, x, rfl⟩
    exact hno route x rfl

instance : DecidablePred AnnounceFailed := fun _ => decidable_of_iff _ isAnnounceFailed_iff

def DestAnnounced (eff : Effects) (pfx : String) (e : CallEvent) : Prop :=
  ∃ nextHop, e.call = .announce ⟨pfx, nextHop⟩ ∧ eff.took e = true

def Withdrawn (pfx : String) (e : CallEvent) : Prop := e = ⟨.withdraw pfx, .ok ()⟩

def DestWithdrew (eff : Effects) (pfx : String) (e : CallEvent) : Prop :=
  e.call = .withdraw pfx ∧ eff.took e = true

theorem Withdrawn.took (hw : Withdrawn pfx e) : DestWithdrew eff pfx e := by
  obtain rfl := hw
  exact ⟨rfl, eff.of_acknowledged _ rfl⟩

theorem Announced.took (ha : Announced pfx e) : DestAnnounced eff pfx e := by
  obtain ⟨nextHop, rfl⟩ := ha
  exact ⟨nextHop, rfl, eff.of_acknowledged _ rfl⟩

def HandoffCall (prefixes : List String) (hop : Option String) : Call → Prop
  | .announce route => route.pfx ∈ prefixes ∧ route.nextHop = hop
  | .withdrawIP peer _ => peer = .source
  | .withdraw _ => False
  | .announceIP _ _ => False
  | _ => True

/-! ### Reading the fold -/

theorem Routes.Concerns.source {c : Call} (hs : Routes.Concerns .source pfx c) :
    c = .withdrawIP .source pfx ∨ c = .announceIP .source pfx := by
  cases c with
  | announce route => cases hs.1
  | withdraw p => cases hs.1
  | announceIP peer p =>
    obtain ⟨rfl, rfl⟩ := hs
    exact .inr rfl
  | withdrawIP peer p =>
    obtain ⟨rfl, rfl⟩ := hs
    exact .inl rfl
  | _ => exact hs.elim

theorem HandoffCall.dest {c : Call} (hc : HandoffCall prefixes hop c)
    (hs : Routes.Concerns .dest pfx c) : c = .announce ⟨pfx, hop⟩ := by
  cases c with
  | announce route =>
    obtain ⟨-, rfl⟩ := hs
    obtain ⟨-, rfl⟩ := hc
    rfl
  | withdraw p => exact hc.elim
  | announceIP peer p => exact hc.elim
  | withdrawIP peer p =>
    obtain ⟨rfl, rfl⟩ := hs
    cases hc
  | _ => exact hs.elim

/-- Only its agent takes a prefix from the source, unless it is announced there again. -/
theorem source_silent_iff (hh : ∀ e ∈ h, e.call ≠ .announceIP .source pfx) :
    routes eff h .source pfx = none ↔ Has (SourceWithdrew eff pfx) h := by
  induction h using List.reverseRecOn with
  | nil => simp [routes, Routes.initial, Has]
  | append_singleton h e ih =>
    rw [has_snoc, ← ih fun a ha => hh a (List.mem_append_left _ ha)]
    by_cases hw : SourceWithdrew eff pfx e
    · rw [routes_took hw.2, hw.1]
      exact iff_of_true (Routes.set_same _ _ _ _) (.inr hw)
    · rw [routes_other fun ht hs => hw ⟨hs.source.resolve_right (hh e (by simp)), ht⟩]
      simp [hw]

/-- Nothing else takes a prefix from the source at all. -/
theorem withdrew_of_source_silent (hs : routes eff h .source pfx = none) :
    Has (SourceWithdrew eff pfx) h := by
  induction h using List.reverseRecOn with
  | nil => cases hs
  | append_singleton h e ih =>
    rw [has_snoc]
    by_cases hw : SourceWithdrew eff pfx e
    · exact .inr hw
    · left
      apply ih
      by_cases ha : e.call = .announceIP .source pfx ∧ eff.took e = true
      · rw [routes_took ha.2, ha.1, Routes.act, Routes.set_same] at hs
        cases hs
      · rwa [routes_other] at hs
        intro ht hc
        rcases hc.source with hc | hc
        · exact hw ⟨hc, ht⟩
        · exact ha ⟨hc, ht⟩

theorem dest_kept (hh : ∀ e ∈ h, ∀ p, e.call ≠ .withdrawIP .dest p)
    (ha : Has (DestAnnounced eff pfx) h) (hw : ¬ Has (DestWithdrew eff pfx) h) :
    routes eff h .dest pfx ≠ none := by
  induction h using List.reverseRecOn with
  | nil => exact absurd ha (not_has_nil _)
  | append_singleton h e ih =>
    rw [has_snoc] at ha
    rw [has_snoc, not_or] at hw
    by_cases hc : eff.took e = true ∧ Routes.Concerns .dest pfx e.call
    · obtain ⟨ht, hc⟩ := hc
      rw [routes_took ht]
      have hwe : e.call ≠ .withdraw pfx := fun hq => hw.2 ⟨hq, ht⟩
      have hpeer := hh e (by simp)
      generalize e.call = c at hc hwe hpeer
      cases c with
      | announce route =>
        obtain ⟨-, rfl⟩ := hc
        simp [Routes.act, Routes.set_same]
      | withdraw p =>
        obtain ⟨-, rfl⟩ := hc
        exact absurd rfl hwe
      | announceIP peer p =>
        obtain ⟨rfl, rfl⟩ := hc
        simp [Routes.act, Routes.set_same]
      | withdrawIP peer p =>
        obtain ⟨rfl, rfl⟩ := hc
        exact absurd rfl (hpeer _)
      | _ => exact hc.elim
    · rw [routes_other fun ht hs => hc ⟨ht, hs⟩]
      apply ih (fun a hm => hh a (List.mem_append_left _ hm)) (ha.resolve_right ?_) hw.1
      rintro ⟨nextHop, hq, ht⟩
      apply hc ⟨ht, _⟩
      rw [hq]
      exact ⟨rfl, rfl⟩

/-- A handoff announces a prefix on the destination with its own next hop, or not at all. -/
theorem dest_route (hh : ∀ e ∈ h, HandoffCall prefixes hop e.call) :
    (Has (DestAnnounced eff pfx) h → routes eff h .dest pfx = some hop) ∧
      (¬ Has (DestAnnounced eff pfx) h → routes eff h .dest pfx = none) := by
  induction h using List.reverseRecOn with
  | nil => exact ⟨fun ha => absurd ha (not_has_nil _), fun _ => rfl⟩
  | append_singleton h e ih =>
    have he := hh e (by simp)
    have ih := ih fun a ha => hh a (List.mem_append_left _ ha)
    rw [has_snoc]
    by_cases hq : DestAnnounced eff pfx e
    · obtain ⟨nextHop, hc, ht⟩ := hq
      rw [routes_took ht, hc]
      rw [hc] at he
      obtain ⟨-, rfl⟩ := he
      exact ⟨fun _ => Routes.set_same _ _ _ _, fun hn => absurd (.inr ⟨_, hc, ht⟩) hn⟩
    · rw [routes_other fun ht hs => hq ⟨hop, he.dest hs, ht⟩]
      simpa [hq] using ih

end NovaFederation

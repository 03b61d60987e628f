import NovaFederation.Handoff

/-!
# Addresses stay reachable

A handoff announces on the destination before it withdraws from the source. The rollback goes
the other way round: it withdraws from the destination first, so between its two calls a prefix
that the source had given up is announced by nobody.
-/

namespace NovaFederation
open History Coroutine
variable {eff : Effects} {pfx : String} {hop : Option String} {prefixes : List String}
  {client : Option (CNFControlStub .source)} {s : EngineState} {h : Trace} {e : CallEvent}

/-- A handoff, whatever it raises, and a rollback with the client of the source. -/
def handoffRollback (prefixes : List String) (hop : Option String)
    (client : Option (CNFControlStub .source)) : Engine Unit := do
  try
    BGPManager.handoff prefixes hop client
  catch _ => pure ()
  BGPManager.rollback prefixes client

/-- One of the two clusters announces each prefix. -/
def Reachable (eff : Effects) (prefixes : List String) (h : Trace) : Prop :=
  ∀ pfx ∈ prefixes, routes eff h .source pfx ≠ none ∨ routes eff h .dest pfx ≠ none

theorem wp_rollback_routes (hr : Respects (RouteLaw prefixes) h) :
    wp (BGPManager.rollback prefixes client) (fun _ _ h' => Respects (RouteLaw prefixes) h')
      (fun _ _ h' => Respects (RouteLaw prefixes) h') s h := by
  rw [BGPManager.rollback]
  apply wp_forM (fun _ _ h' => Respects (RouteLaw prefixes) h') prefixes ?_ hr
  intro done pfx rest s h₁ _ hr₁
  rw [wp_bind, wp_perform]
  constructor
  · intro _
    have hr₂ : Respects (RouteLaw prefixes) (h₁ ++ [⟨.withdraw pfx, .ok ()⟩]) :=
      respects_snoc.2 ⟨hr₁, trivial⟩
    rw [wp_tryCatch, wp_bind]
    cases client with
    | none => exact hr₂
    | some stub =>
      have hw : RouteLaw prefixes (h₁ ++ [⟨.withdraw pfx, .ok ()⟩]) (.announceIP .source pfx) :=
        ⟨rfl, has_snoc.2 (.inr rfl)⟩
      rw [CNFControlStub.announceIP, wp_perform]
      exact ⟨fun _ => respects_snoc.2 ⟨hr₂, hw⟩, fun _ => respects_snoc.2 ⟨hr₂, hw⟩⟩
  · exact fun _ => respects_snoc.2 ⟨hr₁, trivial⟩

theorem wp_handoffRollback :
    wp (handoffRollback prefixes hop client) (fun _ _ h' => Respects (RouteLaw prefixes) h')
      (fun _ _ h' => Respects (RouteLaw prefixes) h') s [] := by
  rw [handoffRollback]
  apply wp_seq (R := fun _ _ h' => Respects (RouteLaw prefixes) h')
  · rw [wp_tryCatch]
    apply wp_mono (wp_handedOver (by simp))
    · exact fun _ _ _ hq => hq.2.law
    · rintro _ _ _ ⟨-, hi | hh⟩
      · exact hi.law
      · exact hh.law
  · exact fun _ _ _ hr => wp_rollback_routes hr

theorem respects_handoffRollback (O : World) (prefixes : List String) (hop : Option String)
    (client : Option (CNFControlStub .source)) (s : EngineState) :
    Respects (RouteLaw prefixes) (exec O (handoffRollback prefixes hop client) s []).2.2 :=
  wp_exec_end (@wp_handoffRollback hop prefixes client s) O

theorem not_announced_back (hr : Respects (RouteLaw prefixes) h)
    (hn : ¬ Has (DestWithdrew eff pfx) h) : ∀ e ∈ h, e.call ≠ .announceIP .source pfx := by
  intro e he hc
  obtain ⟨pre, post, rfl⟩ := List.append_of_mem he
  have hl := hr.at_split rfl
  rw [hc] at hl
  obtain ⟨-, w, hw, hwd⟩ := hl
  exact hn ⟨w, List.mem_append_left _ hw, hwd.took⟩

theorem source_withdrew_before (hr : Respects (RouteLaw prefixes) h) {pre post : Trace}
    (hh : h = pre ++ e :: post) (he : DestWithdrew eff pfx e)
    (hw : Has (SourceWithdrew eff pfx) h) : Has (SourceWithdrew eff pfx) pre := by
  obtain ⟨b, hb, hwb⟩ := hw
  rw [hh] at hb
  rcases List.mem_append.1 hb with hb | hb
  · exact ⟨b, hb, hwb⟩
  · rcases List.mem_cons.1 hb with rfl | hb
    · have hne := he.1.symm.trans hwb.1
      cases hne
    · obtain ⟨mid, post, rfl⟩ := List.append_of_mem hb
      have hb' : h = (pre ++ e :: mid) ++ b :: post := by simp [hh]
      have hl := hr.at_split hb'
      rw [hwb.1] at hl
      exact absurd he.1 (hl.2.2 e (by simp) pfx)

/-- At the withdrawal of the rollback a prefix that the source has given up is lost. -/
theorem unreachable_of_withdrawn (hr : Respects (RouteLaw prefixes) h)
    (hsw : Has (SourceWithdrew eff pfx) h) (hdw : Has (DestWithdrew eff pfx) h) :
    ∃ pre, pre <+: h ∧ routes eff pre .source pfx = none ∧ routes eff pre .dest pfx = none := by
  obtain ⟨pre, e, post, hh, he, hfirst⟩ := hdw.first
  have hpre : pre ++ [e] <+: h := ⟨post, by simp [hh]⟩
  have hback := not_announced_back (hr.restrict ((List.prefix_append pre [e]).trans hpre)) hfirst
  have hsource := (source_silent_iff hback).2 (source_withdrew_before hr hh he hsw)
  refine ⟨pre ++ [e], hpre, ?_, ?_⟩
  · rw [routes_took he.2, he.1]
    exact (Routes.set_other (by simp)).trans hsource
  · rw [routes_took he.2, he.1]
    exact Routes.set_same _ _ _ _

theorem dest_withdrew_of_unreachable (hr : Respects (RouteLaw prefixes) h) (hp : pfx ∈ prefixes)
    (hsw : Has (SourceWithdrew eff pfx) h) (hd : routes eff h .dest pfx = none) :
    Has (DestWithdrew eff pfx) h := by
  obtain ⟨b, hb, hwb⟩ := hsw
  obtain ⟨pre, post, rfl⟩ := List.append_of_mem hb
  have hl := hr.at_split rfl
  rw [hwb.1] at hl
  obtain ⟨a, ha, hann⟩ := hl.2.1 pfx hp
  by_contra hn
  refine dest_kept ?_ ⟨a, List.mem_append_left _ ha, hann.took⟩ hn hd
  intro c hc p hcp
  obtain ⟨pre', post', hh'⟩ := List.append_of_mem hc
  have hl' := hr.at_split hh'
  rw [hcp] at hl'
  cases hl'.1

theorem reachable_iff (O : World) (eff : Effects) (prefixes : List String) (hop : Option String)
    (client : Option (CNFControlStub .source)) (s : EngineState) :
    Throughout (Reachable eff prefixes)
        (exec O (handoffRollback prefixes hop client) s []).2.2 ↔
      ∀ pfx ∈ prefixes,
        ¬ (Has (SourceWithdrew eff pfx) (exec O (handoffRollback prefixes hop client) s []).2.2 ∧
          Has (DestWithdrew eff pfx) (exec O (handoffRollback prefixes hop client) s []).2.2) := by
  have hr := respects_handoffRollback O prefixes hop client s
  generalize (exec O (handoffRollback prefixes hop client) s []).2.2 = h at hr
  constructor
  · rintro hall pfx hp ⟨hsw, hdw⟩
    obtain ⟨pre, hpre, hs, hd⟩ := unreachable_of_withdrawn hr hsw hdw
    rcases hall pre hpre pfx hp with hq | hq
    · exact hq hs
    · exact hq hd
  · intro hno pre hpre pfx hp
    by_contra hq
    rw [not_or, not_not, not_not] at hq
    have hsw := withdrew_of_source_silent hq.1
    have hdw := dest_withdrew_of_unreachable (hr.restrict hpre) hp hsw hq.2
    exact hno pfx hp ⟨hsw.extend hpre, hdw.extend hpre⟩

/-- Every call succeeds. -/
theorem not_reachable :
    ¬ Throughout (Reachable .atomic ["10.0.0.5/32"])
      (exec (cooperative twoVolumes) (handoffRollback ["10.0.0.5/32"] (some "") (some {}))
        (EngineState.init (connected .cold)) []).2.2 := by
  intro hall
  have hwithdrawn := hall _ (List.take_prefix 4 _) "10.0.0.5/32" (by decide)
  revert hwithdrawn
  decide +kernel

end NovaFederation

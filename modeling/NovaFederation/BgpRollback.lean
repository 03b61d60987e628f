import NovaFederation.Reachability

/-!
# A rollback of routes in which calls fail

`BGPManager.rollback` swallows what `AnnounceIP` raises and lets what `withdraw` raises escape,
so the first withdrawal that raises is the last call of the loop. `Reversed` and `BrokenOff`
are the two ends of a rollback.
-/

namespace NovaFederation
open History Coroutine
variable {O : World} {eff : Effects} {client : CNFControlStub .source} {s : EngineState}
  {prefixes : List String} {pfx : String} {h t : Trace}

def reversal (pfx : String) : List Call := [.withdraw pfx, .announceIP .source pfx]

def WithdrawRaised (e : CallEvent) : Prop := ∃ pfx x, e = ⟨.withdraw pfx, .error x⟩

def Reannounced (pfx : String) (e : CallEvent) : Prop :=
  e.call = .announceIP .source pfx ∧ acknowledged e = true

/-- Both calls of each prefix were made, and the withdrawals returned. -/
structure Reversed (done : List String) (t : Trace) : Prop where
  calls : t.map Event.call = done.flatMap reversal
  returned : ∀ e ∈ t, ¬ WithdrawRaised e

/-- The withdrawal of a prefix raised after all was well with those before it. -/
def BrokenOff (prefixes : List String) (t : Trace) : Prop :=
  ∃ done pfx rest t' x, prefixes = done ++ pfx :: rest ∧ Reversed done t' ∧
    t = t' ++ [⟨.withdraw pfx, .error x⟩]

theorem reversed_nil : Reversed [] [] := ⟨rfl, by simp⟩

theorem Reversed.snoc (hr : Reversed prefixes t) (pfx : String)
    (reply : Except PyException BGPResponse) :
    Reversed (prefixes ++ [pfx])
      (t ++ [⟨.withdraw pfx, .ok ()⟩, ⟨.announceIP .source pfx, reply⟩]) := by
  constructor
  · simp [hr.calls, reversal]
  · intro e he
    rcases List.mem_append.1 he with he | he
    · exact hr.returned e he
    · rintro ⟨p, x, rfl⟩
      simp at he

theorem length_flatMap_reversal (prefixes : List String) :
    (prefixes.flatMap reversal).length = 2 * prefixes.length := by
  induction prefixes with
  | nil => rfl
  | cons p prefixes ih =>
    rw [List.flatMap_cons, List.length_append, ih]
    simp only [reversal, List.length_cons, List.length_nil]
    omega

theorem BrokenOff.raises (hi : BrokenOff prefixes t) : ∃ e ∈ t, WithdrawRaised e := by
  obtain ⟨done, p, rest, t', x, -, -, rfl⟩ := hi
  exact ⟨⟨.withdraw p, .error x⟩, by simp, p, x, rfl⟩

theorem BrokenOff.calls_ne (hi : BrokenOff prefixes t) :
    t.map Event.call ≠ prefixes.flatMap reversal := by
  obtain ⟨done, p, rest, t', x, -, hr, rfl⟩ := hi
  intro hc
  have hlen := congrArg List.length hc
  rw [List.map_append, List.length_append, hr.calls, length_flatMap_reversal,
    length_flatMap_reversal] at hlen
  simp only [List.map_cons, List.map_nil, List.length_cons, List.length_nil] at hlen
  omega

theorem wp_reversed :
    wp (BGPManager.rollback prefixes (some client))
      (fun _ _ h' => ∃ t, h' = h ++ t ∧ Reversed prefixes t)
      (fun _ _ h' => ∃ t, h' = h ++ t ∧ BrokenOff prefixes t) s h := by
  rw [BGPManager.rollback]
  refine wp_forM (fun done _ h' => ∃ t, h' = h ++ t ∧ Reversed done t) prefixes ?_
    ⟨[], by simp, reversed_nil⟩
  rintro done p rest s _ hsplit ⟨t, rfl, hr⟩
  rw [wp_bind, wp_perform]
  constructor
  · intro _
    rw [wp_tryCatch, wp_bind, CNFControlStub.announceIP, wp_perform]
    exact ⟨fun v => ⟨_, by simp, hr.snoc p (.ok v)⟩, fun x => ⟨_, by simp, hr.snoc p (.error x)⟩⟩
  · intro x
    exact ⟨_, List.append_assoc _ _ _, done, p, rest, t, x, hsplit, hr, rfl⟩

def rollbackTrace (O : World) (prefixes : List String) (client : CNFControlStub .source)
    (s : EngineState) (h : Trace) : Trace :=
  (exec O (BGPManager.rollback prefixes (some client)) s h).2.2.drop h.length

theorem reversed_or_brokenOff (O : World) (prefixes : List String)
    (client : CNFControlStub .source) (s : EngineState) (h : Trace) :
    Reversed prefixes (rollbackTrace O prefixes client s h) ∨
      BrokenOff prefixes (rollbackTrace O prefixes client s h) := by
  obtain ⟨hok, herr⟩ := wp_exec O (@wp_reversed client s prefixes h)
  rw [rollbackTrace]
  rcases hout : exec O (BGPManager.rollback prefixes (some client)) s h with ⟨x | _, s', h'⟩
  · obtain ⟨t, rfl, hi⟩ := herr x s' h' hout
    rw [List.drop_left]
    exact .inr hi
  · obtain ⟨t, rfl, hr⟩ := hok _ s' h' hout
    rw [List.drop_left]
    exact .inl hr

/-! ### The routes of a prefix -/

theorem routes_settled {side : Side} {P : Option (Option String) → Prop}
    (hP : ∀ e ∈ t, Routes.Concerns side pfx e.call → ∀ w : Routes, P (w.act e.call side pfx))
    (ht : ∃ e ∈ t, Routes.Concerns side pfx e.call ∧ eff.took e = true) :
    P (routes eff (h ++ t) side pfx) := by
  induction t using List.reverseRecOn with
  | nil => simp at ht
  | append_singleton t e ih =>
    rw [← List.append_assoc]
    by_cases he : Routes.Concerns side pfx e.call ∧ eff.took e = true
    · rw [routes_took he.2]
      exact hP e (by simp) he.1 _
    · rw [routes_other fun htook hc => he ⟨hc, htook⟩]
      apply ih fun a ha => hP a (List.mem_append_left _ ha)
      obtain ⟨a, ha, hac⟩ := ht
      rcases List.mem_append.1 ha with ha | ha
      · exact ⟨a, ha, hac⟩
      · rw [List.mem_singleton.1 ha] at hac
        exact absurd hac he

theorem mem_reversals {e : CallEvent} (hc : t.map Event.call = prefixes.flatMap reversal)
    (he : e ∈ t) : ∃ p, e.call = .withdraw p ∨ e.call = .announceIP .source p := by
  have hm : e.call ∈ prefixes.flatMap reversal := hc ▸ List.mem_map_of_mem he
  obtain ⟨p, -, hp⟩ := List.mem_flatMap.1 hm
  rw [reversal, List.mem_pair] at hp
  exact ⟨p, hp⟩

theorem given_back (hc : t.map Event.call = prefixes.flatMap reversal)
    (hw : Has (Withdrawn pfx) t) (ha : Has (Reannounced pfx) t) :
    routes eff (h ++ t) .source pfx ≠ none ∧ routes eff (h ++ t) .dest pfx = none := by
  constructor
  · apply routes_settled (P := (· ≠ none))
    · intro e he hs w
      obtain ⟨p, hp | hp⟩ := mem_reversals hc he
      · rw [hp] at hs
        cases hs.1
      · rw [hp] at hs ⊢
        obtain ⟨-, rfl⟩ := hs
        simp [Routes.act, Routes.set_same]
    · obtain ⟨e, he, hcall, hack⟩ := ha
      exact ⟨e, he, by rw [hcall]; exact ⟨rfl, rfl⟩, eff.of_acknowledged e hack⟩
  · apply routes_settled (P := (· = none))
    · intro e he hs w
      obtain ⟨p, hp | hp⟩ := mem_reversals hc he
      · rw [hp] at hs ⊢
        obtain ⟨-, rfl⟩ := hs
        exact Routes.set_same _ _ _ _
      · rw [hp] at hs
        cases hs.1
    · obtain ⟨e, he, rfl⟩ := hw
      exact ⟨_, he, ⟨rfl, rfl⟩, eff.of_acknowledged _ rfl⟩

/-! ### Isolation of failures -/

/-- A rollback attempts both calls of every prefix, and each prefix whose own calls succeed is
announced by the source and not by the destination. -/
structure Isolated (eff : Effects) (prefixes : List String) (h t : Trace) : Prop where
  attempted : t.map Event.call = prefixes.flatMap reversal
  restored : ∀ pfx ∈ prefixes, Has (Withdrawn pfx) t → Has (Reannounced pfx) t →
    routes eff (h ++ t) .source pfx ≠ none ∧ routes eff (h ++ t) .dest pfx = none

/-- From any history, with any answers and effects of the calls. -/
theorem rollback_isolated_iff (O : World) (eff : Effects) (prefixes : List String)
    (client : CNFControlStub .source) (s : EngineState) (h : Trace) :
    Isolated eff prefixes h (rollbackTrace O prefixes client s h) ↔
      ∀ e ∈ rollbackTrace O prefixes client s h, ¬ WithdrawRaised e := by
  have hends := reversed_or_brokenOff O prefixes client s h
  generalize rollbackTrace O prefixes client s h = t at hends
  rcases hends with hr | hi
  · exact iff_of_true ⟨hr.calls, fun p _ => given_back hr.calls⟩ hr.returned
  · refine iff_of_false (fun his => hi.calls_ne his.attempted) ?_
    obtain ⟨e, he, hraised⟩ := hi.raises
    exact fun hall => hall e he hraised

def stuckRoute (stuck : String) : World
  | h, .withdraw pfx =>
    if pfx = stuck then .error ⟨.bgpError, "vtysh failed"⟩
    else cooperative twoVolumes h (.withdraw pfx)
  | h, c => cooperative twoVolumes h c

/-- The second prefix stays as it is because the first could not be withdrawn. -/
theorem rollback_not_isolated :
    rollbackTrace (stuckRoute "10.0.0.5/32") ["10.0.0.5/32", "10.0.0.6/32"] {}
        (.init (connected .live)) [] =
      [⟨.withdraw "10.0.0.5/32", .error ⟨.bgpError, "vtysh failed"⟩⟩] ∧
      ¬ Isolated .atomic ["10.0.0.5/32", "10.0.0.6/32"] []
        (rollbackTrace (stuckRoute "10.0.0.5/32") ["10.0.0.5/32", "10.0.0.6/32"] {}
          (.init (connected .live)) []) := by
  have ht : rollbackTrace (stuckRoute "10.0.0.5/32") ["10.0.0.5/32", "10.0.0.6/32"] {}
      (.init (connected .live)) [] =
        [⟨.withdraw "10.0.0.5/32", .error ⟨.bgpError, "vtysh failed"⟩⟩] := rfl
  refine ⟨ht, fun hi => ?_⟩
  have hlen := congrArg List.length hi.attempted
  rw [ht] at hlen
  exact absurd hlen (by decide)

end NovaFederation

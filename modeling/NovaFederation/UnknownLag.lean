import NovaFederation.LagBound
import NovaFederation.PreflightSafety

/-!
# A lag that cannot be parsed

`get_mirror_status` starts from a lag of zero and keeps it when the description speaks of the
entries but no integer is found where one is looked for. Nothing in the status tells this zero
from a measured one, and the callers take it for no lag.
-/

namespace NovaFederation
open Coroutine CephRBDClient PyString

/-- `field` stands between the key and a comma, the key again or the end of the text. -/
def IsEntries (field text : List Char) : Prop :=
  ∃ before after, text = before ++ "entries_behind_master=".toList ++ field ++ after ∧
    (EndsAt ",".toList after ∨ EndsAt "entries_behind_master=".toList after)

/-- The description speaks of the entries behind the master and does not tell their number. -/
structure LagUnknown (description : String) : Prop where
  mentioned : contains "entries_behind_master" description = true
  unparsable : ∀ field, IsEntries field description.toList → int (.ofList field) = none

/-- Nobody acts on the status: it is not synced, no preflight passes by it, and no wait ends with
the poll that answered it. -/
structure NotTaken (d : ℤ) (maxLag : Option ℤ) (data : MirrorDocument) : Prop where
  synced : ∀ pool image, (getMirrorStatus pool image data).synced = false
  preflight : ∀ (a : RbdAnswers) pool image reason,
    a.polls 0 = .ok (getMirrorStatus pool image data) →
      (run a.world (preflightCheck ⟨d⟩ pool image maxLag) ()).1 ≠ .ok (true, reason)
  wait : ∀ (a : RbdAnswers) pool image T p rounds k status,
    a.polls k = .ok (getMirrorStatus pool image data) →
      let out := run a.world (waitForSync ⟨d⟩ pool image maxLag T p rounds) ()
      out.1 = .ok (some status) → polled out.2.2 ≠ k + 1

/-! ### The parser -/

theorem isEntries_of_parsed {desc : String} {n : ℤ} (h : entriesBehindMaster desc = some n) :
    ∃ field, IsEntries field desc.toList ∧ int (.ofList field) = some n := by
  unfold entriesBehindMaster at h
  obtain ⟨_, hsplit, h⟩ := Option.bind_eq_some_iff.1 h
  rw [getElem?_split] at hsplit
  obtain ⟨part, hpart, rfl⟩ := Option.map_eq_some_iff.1 hsplit
  obtain ⟨_, hsplit, hint⟩ := Option.bind_eq_some_iff.1 h
  rw [getElem?_split] at hsplit
  obtain ⟨field, hfield, rfl⟩ := Option.map_eq_some_iff.1 hsplit
  obtain ⟨before, after, hdesc, hend⟩ :=
    second_field (by decide) (Nat.le_of_eq String.length_toList) hpart
  obtain ⟨after', hrest, hend'⟩ := first_field (Nat.le_of_eq String.length_toList) hfield
  obtain rfl : part = field ++ after' := String.toList_ofList.symm.trans hrest
  refine ⟨field, ⟨before, after' ++ after, ?_, ?_⟩, hint⟩
  · rw [hdesc]
    simp only [List.append_assoc]
  · rcases hend' with rfl | hcomma
    · exact .inr hend
    · exact .inl (.inr (hcomma.trans (List.prefix_append _ _)))

theorem lag_of_unknown {data : MirrorDocument} (h : LagUnknown (data.description.getD ""))
    (pool image : String) : (getMirrorStatus pool image data).lagBytes = 0 := by
  have hnone : entriesBehindMaster (data.description.getD "") = none := by
    cases hparsed : entriesBehindMaster (data.description.getD "") with
    | none => rfl
    | some n =>
      obtain ⟨field, hfield, hint⟩ := isEntries_of_parsed hparsed
      rw [h.unparsable field hfield] at hint
      cases hint
  simp only [getMirrorStatus, h.mentioned, if_true, hnone]

/-- Without the key in the text there is nothing to parse. -/
theorem unknown_of_keyless {description : String}
    (hmentioned : contains "entries_behind_master" description = true)
    (hkey : contains "entries_behind_master=" description = false) : LagUnknown description where
  mentioned := hmentioned
  unparsable := by
    rintro field ⟨before, after, htext, -⟩
    refine absurd ?_ (of_decide_eq_false hkey)
    exact ⟨before, field ++ after, by rw [htext]; simp only [List.append_assoc]⟩

/-! ### The callers -/

section Callers
variable {d : ℤ} {maxLag : Option ℤ} {data : MirrorDocument}

theorem synced_iff_of_unknown (h : LagUnknown (data.description.getD "")) (pool image : String) :
    (getMirrorStatus pool image data).synced = true ↔ data.state = some "up+replaying" := by
  rw [synced_iff]
  exact and_iff_left (lag_of_unknown h pool image)

theorem polls_of_returned {a : RbdAnswers} {pool image : String} {T p : ℤ} {rounds k : ℕ}
    {status : MirrorStatus}
    (hout : (run a.world (waitForSync ⟨d⟩ pool image maxLag T p rounds) ()).1 = .ok (some status))
    (hk : polled (run a.world (waitForSync ⟨d⟩ pool image maxLag T p rounds) ()).2.2 = k + 1) :
    a.polls k = .ok status ∧ status.lagBytes ≤ threshold ⟨d⟩ maxLag := by
  obtain ⟨hlag, t, ht⟩ :=
    withinThreshold_waitForSync ⟨d⟩ pool image maxLag T p a.world rounds hout status rfl
  have hlast : t ++ [⟨.getMirrorStatus pool image, .ok status⟩] <+:
      (run a.world (waitForSync ⟨d⟩ pool image maxLag T p rounds) ()).2.2 := by rw [ht]
  have hreply := reply_of_run hlast
  rw [ht, polled_append] at hk
  have hpolled : polled t = k := Nat.succ.inj hk
  rw [← hpolled]
  exact ⟨hreply.symm, hlag⟩

end Callers

theorem unknown_lag_iff (d : ℤ) (maxLag : Option ℤ) (data : MirrorDocument)
    (h : LagUnknown (data.description.getD "")) :
    NotTaken d maxLag data ↔
      data.state ≠ some "up+replaying" ∧ threshold ⟨d⟩ maxLag < 0 := by
  have hlag := lag_of_unknown h
  constructor
  · intro hn
    refine ⟨fun hstate => ?_, ?_⟩
    · have hsynced := (synced_iff_of_unknown h "rbd" "volume-a").2 hstate
      rw [hn.synced] at hsynced
      cases hsynced
    · by_contra hle
      refine hn.preflight ⟨.ok mirrored, fun _ => .ok (getMirrorStatus "rbd" "volume-a" data)⟩
        "rbd" "volume-a" "ok" rfl ((preflightCheck_ok_iff ..).2 ⟨rfl, _, _, rfl, rfl, rfl, ?_⟩)
      rw [hlag]
      omega
  · rintro ⟨hstate, hneg⟩
    refine ⟨fun pool image => ?_, fun a pool image reason hpoll hok => ?_, ?_⟩
    · rw [← Bool.not_eq_true, synced_iff_of_unknown h]
      exact hstate
    · obtain ⟨-, info, status, -, hstatus, -, hle⟩ := (preflightCheck_ok_iff ..).1 hok
      obtain rfl := Except.ok.inj (hpoll.symm.trans hstatus)
      rw [hlag] at hle
      omega
    · intro a pool image T p rounds k status hpoll out hout hk
      obtain ⟨hstatus, hle⟩ := polls_of_returned hout hk
      obtain rfl := Except.ok.inj (hpoll.symm.trans hstatus)
      rw [hlag] at hle
      omega

/-- A threshold below zero lets no image pass. -/
theorem unknown_lag_below_zero :
    NotTaken (-1) none ⟨some "down+unknown", some "\"entries_behind_master\": 12"⟩ :=
  (unknown_lag_iff _ _ _ (unknown_of_keyless (by decide +kernel) (by decide +kernel))).2
    ⟨by decide, by decide⟩

/-- Twelve entries that are told in the style of JSON are no lag. -/
theorem not_unknown_lag :
    LagUnknown "replaying, \x7b\"entries_behind_master\": 12\x7d" ∧
      ¬ NotTaken 52428800 none
        ⟨some "up+replaying", some "replaying, \x7b\"entries_behind_master\": 12\x7d"⟩ := by
  refine ⟨unknown_of_keyless (by decide +kernel) (by decide +kernel), fun hn => ?_⟩
  have hsynced := hn.synced "rbd" "volume-a"
  revert hsynced
  decide +kernel

end NovaFederation

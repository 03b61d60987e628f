import NovaFederation.EngineFrame
import NovaFederation.Obligations
import NovaFederation.Phases
import NovaFederation.RowHistory

/-!
# The replies after which a run registers a handler

A step registers its handler between two awaits. Some do so after the commit of a transition.
For every other reply `arms` says whether a registration follows it before the next await, by
the images and addresses of the run and the calls it has made. The steps of both engines honour
this, whatever `abort` does while they wait.
-/

namespace NovaFederation
open Coroutine MigrationEngine
variable {kind : MigrationType} {cfg : Settings} {images ips : List String} {s : EngineState}

structure Tally where
  demotes : ℕ := 0
  waits : ℕ := 0

def Tally.add (n : Tally) : Call → Tally
  | .demote _ _ => { n with demotes := n.demotes + 1 }
  | .waitConvergence _ => { n with waits := n.waits + 1 }
  | _ => n

def tally (h : Trace) : Tally := h.foldl (fun n e => n.add e.call) {}

def Demoting (k : ℕ) (n : Tally) : Prop := n.demotes = k ∧ n.waits = 0

theorem tally_snoc (h : Trace) (e : CallEvent) : tally (h ++ [e]) = (tally h).add e.call := by
  rw [tally, List.foldl_append]
  rfl

/-- A registration follows the reply. In the disk step it comes after the last demotion, or
after the stop of a VM without volumes; only the cold engine registers the routes, once the last
of them has converged. -/
def arms (kind : MigrationType) (images ips : List String) (n : Tally) : CallEvent → Bool
  | ⟨.stopVm _, .ok _⟩ => images.isEmpty
  | ⟨.demote _ _, .ok _⟩ => n.demotes + 1 == images.length
  | ⟨.waitConvergence _, .ok _⟩ => decide (kind = .cold) && n.waits + 1 == ips.length
  | _ => false

theorem arms_error (kind : MigrationType) (images ips : List String) (n : Tally) (c : Call)
    (e : PyException) : arms kind images ips n ⟨c, .error e⟩ = false := by
  cases c <;> rfl

structure Roster where
  images : List String
  ips : List String
  rollbacks : List Rollback

def EngineState.roster (s : EngineState) : Roster := ⟨s.ctx.rbdImages, s.ctx.vmIps, s.rollbacks⟩

def EngineState.register (s : EngineState) (fn : Rollback) : EngineState :=
  { s with rollbacks := s.rollbacks ++ [fn] }

theorem recordBlind_roster : RecordBlind EngineState.roster := fun _ _ _ => rfl

/-- The images and addresses stay as they are, and the handlers change as `arms` says. -/
def enlistment (kind : MigrationType) (images ips : List String) :
    Terms PyException Call Call.Reply Roster Tally where
  rely v := v.images = images ∧ v.ips = ips
  tally n e := n.add e.call
  owed n e v v' _ := v'.images = v.images ∧ v'.ips = v.ips ∧
    (commits e = false → (v'.rollbacks = v.rollbacks ↔ arms kind images ips n e = false))

theorem owed_same {n : Tally} {e : CallEvent} (he : arms kind images ips n e = false)
    (v : Roster) (o : Option Call) : (enlistment kind images ips).owed n e v v o :=
  ⟨rfl, rfl, fun _ => by simp [he]⟩

theorem owed_registered {n : Tally} {e : CallEvent} (he : arms kind images ips n e = true)
    (s : EngineState) (fn : Rollback) (o : Option Call) :
    (enlistment kind images ips).owed n e s.roster (s.register fn).roster o :=
  ⟨rfl, rfl, fun _ => by simp [he, EngineState.roster, EngineState.register]⟩

abbrev Square (kind : MigrationType) (images ips : List String) (I : Tally → Prop) :
    Account Tally Roster Call EngineState :=
  Paid (enlistment kind images ips) EngineState.roster I

abbrev Enlists {α : Type} (kind : MigrationType) (images ips : List String) (p : Engine α)
    (Q : α → Account Tally Roster Call EngineState) : Account Tally Roster Call EngineState :=
  Honours (enlistment kind images ips) EngineState.roster p Q (closing EngineState.roster)

/-- Of `total` calls `k` have been made, and the handler is registered after the last. -/
structure Toward (kind : MigrationType) (images ips : List String) (fn : Rollback)
    (I : Tally → Prop) (k total : ℕ) (n : Tally) (owed : Roster → Option Call → Prop)
    (s : EngineState) : Prop where
  tallied : I n
  relied : (enlistment kind images ips).rely s.roster
  before : k < total → ∀ o, owed s.roster o
  last : k = total → ∀ o, owed (s.register fn).roster o

section Replies
variable {I J : Tally → Prop} {fn : Rollback} {k total : ℕ} {n : Tally}
  {owed : Roster → Option Call → Prop}

theorem Toward.square (hd : Toward kind images ips fn I k total n owed s) (hk : k < total) :
    Square kind images ips I n owed s :=
  ⟨hd.tallied, hd.relied, hd.before hk⟩

theorem Toward.register (hd : Toward kind images ips fn I total total n owed s) :
    Enlists kind images ips (registerRollback fn) (fun _ => Square kind images ips I)
      n owed s :=
  ⟨hd.tallied, hd.relied, hd.last rfl⟩

theorem enlists_await {c : Call} (hI : ∀ n, I n → J (n.add c))
    (ha : ∀ n v, I n → arms kind images ips n ⟨c, .ok v⟩ = decide (k = total))
    (hs : Square kind images ips I n owed s) :
    Enlists kind images ips (await c) (fun _ => Toward kind images ips fn J k total) n owed s := by
  refine (honours_perform c).2 ⟨hs.owed _, fun s' hr =>
    ⟨fun v => ?_, fun e => owed_same (arms_error ..) _ _⟩⟩
  refine ⟨hI n hs.tallied, hr, fun hk => owed_same ?_ _, fun hk => owed_registered ?_ s' fn⟩
  · rw [ha n v hs.tallied]
    exact decide_eq_false (Nat.ne_of_lt hk)
  · rw [ha n v hs.tallied]
    exact decide_eq_true hk

/-- After a commit the step is free to register. -/
theorem enlists_transition (state : MigrationState) (progress : ℚ)
    (hs : Square kind images ips I n owed s) :
    Enlists kind images ips (transition .run state progress)
      (fun _ n owed s => ∀ fn total, Toward kind images ips fn I 0 total n owed s) n owed s := by
  refine (honours_bind _ _).2 ((honours_perform _).2 ⟨hs.owed _, fun s' hr =>
    ⟨fun v fn total => ?_, fun e => owed_same (arms_error ..) _ _⟩⟩)
  exact ⟨hs.tallied, hr, fun _ => owed_same rfl _, fun _ _ => ⟨rfl, rfl, nofun⟩⟩

def Idle (kind : MigrationType) (images ips : List String) (I : Tally → Prop) (c : Call) : Prop :=
  ∀ n, I n → I (n.add c) ∧ ∀ r, arms kind images ips n ⟨c, r⟩ = false

theorem enlists_idle {α : Type} {p : Engine α} (hc : Calls (Idle kind images ips I) p)
    (hk : Keeps EngineState.roster p) (hs : Square kind images ips I n owed s) :
    Enlists kind images ips p (fun _ => Square kind images ips I) n owed s := by
  refine (honours_frame (hc.mono fun c hi n r v hn _ => ?_) (hk s) hs).mono
    (fun _ _ _ _ hq => hq) fun _ _ _ _ hq => hq.owed _
  exact ⟨(hi n hn).1, owed_same ((hi n hn).2 r) v⟩

def Call.isApart : Call → Bool
  | .stopVm _ => false
  | .demote _ _ => false
  | .waitConvergence _ => false
  | _ => true

theorem idle_of_apart {c : Call} (hc : c.isApart = true) : Idle kind images ips I c := by
  intro n hn
  cases c <;> first | exact ⟨hn, fun _ => rfl⟩ | cases hc

theorem idle_of_within {st : MigrationState} (hst : st = .memory ∨ st = .cleanup) {c : Call}
    (hc : Within st c) : Idle kind images ips I c := by
  apply idle_of_apart
  rcases hst with rfl | rfl <;> cases c <;> first | rfl | cases hc

theorem idle_transition (state : MigrationState) (progress : ℚ) :
    Calls (Idle kind images ips I) (transition .run state progress) :=
  .bind (.modify _ _) fun _ => .perform (idle_of_apart rfl)

theorem idle_promoteAll : Calls (Idle kind images ips I) (promoteAll cfg) := by
  refine .bind (.read _) fun _ => .forM fun image _ => .ite ?_ (.perform (idle_of_apart rfl))
  exact .bind (.perform (idle_of_apart rfl)) fun _ => .pure _ _

theorem enlists_ending (progress : ℚ) (hs : Square kind images ips I n owed s) :
    Enlists kind images ips (cleanup progress >>= fun _ => transition .run .done 100 >>= fun _ =>
      (pure true : Engine Bool)) (closing EngineState.roster) n owed s := by
  apply Honours.mono (enlists_idle (I := I) ?_ ?_ hs)
  · exact fun _ _ _ _ hq => hq.owed _
  · exact fun _ _ _ _ hq => hq
  · exact .bind ((isStep_cleanup progress).calls.mono fun _ => idle_of_within (.inr rfl)) fun _ =>
      .bind (idle_transition _ _) fun _ => .pure _ _
  · exact keeps_ending recordBlind_roster _

/-- A call in a loop after which the handler is not registered. -/
theorem enlists_pass {c : Call} (hc : c.isApart = true) (hk : k < total)
    (hd : Toward kind images ips fn I k total n owed s) :
    Enlists kind images ips (await c) (fun _ => Toward kind images ips fn I k total) n owed s := by
  have hi : Idle kind images ips I c := idle_of_apart hc
  refine enlists_await (fun n hn => (hi n hn).1) (fun n v hn => ?_) (hd.square hk)
  rw [(hi n hn).2, decide_eq_false (Nat.ne_of_lt hk)]

theorem enlists_demote (image : String) (hk : k < images.length)
    (hd : Toward kind images ips fn (Demoting k) k images.length n owed s) :
    Enlists kind images ips (await (.demote cfg.pool image))
      (fun _ => Toward kind images ips fn (Demoting (k + 1)) (k + 1) images.length) n owed s := by
  refine enlists_await (fun n hn => ⟨congrArg (· + 1) hn.1, hn.2⟩) (fun n v hn => ?_)
    (hd.square hk)
  rw [arms, hn.1]
  rfl

end Replies

variable {n : Tally} {owed : Roster → Option Call → Prop}

namespace ColdMigrationEngine

theorem enlists_stepDisk (hs : Square .cold images ips (Demoting 0) n owed s) :
    Enlists .cold images ips (stepDisk cfg) (fun _ => Square .cold images ips (·.waits = 0))
      n owed s := by
  apply Honours.seq (enlists_transition .disk 20 hs)
  intro _ n owed s hd
  rw [honours_bind, honours_read]
  have himages : s.ctx.rbdImages = images := (hd .disk 0).relied.1
  rw [himages]
  have hstop : Enlists .cold images ips
      (if s.ctx.vm.any (·.status == "ACTIVE") then await (.stopVm s.ctx.vmId) else pure ())
      (fun _ => Toward .cold images ips .disk (Demoting 0) 0 images.length) n owed s := by
    split_ifs
    · refine enlists_await (fun n hn => hn) (fun n v hn => ?_) ((hd .disk 1).square Nat.one_pos)
      cases images <;> rfl
    · exact hd _ _
  apply hstop.seq
  intro _ n owed s hd
  apply Honours.seq (honours_forM (fun _ => Toward .cold images ips .disk (Demoting 0) 0
    images.length) images ?_ hd)
  · intro _ n owed s hd
    apply Honours.seq (honours_forM (fun k => Toward .cold images ips .disk (Demoting k) k
      images.length) images ?_ hd)
    · intro _ n owed s hd
      apply hd.register.seq
      intro _ n owed s hs
      refine enlists_idle ?_ ?_ ⟨hs.tallied.2, hs.relied, hs.owed⟩
      · exact .bind idle_promoteAll fun _ => idle_transition _ _
      · exact .bind keeps_promoteAll fun _ => keeps_transition recordBlind_roster _ _ _
    · exact fun k image n owed s hk hd => enlists_demote image hk hd
  · intro k image n owed s hk hd
    exact (enlists_pass rfl (Nat.zero_lt_of_lt hk) hd).seq fun _ _ _ _ hd => hd

theorem idle_stepCutover : Calls (Idle .cold images ips (·.waits = 0)) (stepCutover cfg) := by
  apply attaching_stepCutover.mono
  intro c hc
  apply idle_of_apart
  cases c <;> first | rfl | cases hc

theorem enlists_handoff {peer : Side} {prefixes : List String}
    (hlen : prefixes.length = ips.length) (hne : 0 < ips.length) (nextHop : Option String)
    (client : Option (CNFControlStub peer))
    (hs : Square .cold images ips (·.waits = 0) n owed s) :
    Enlists .cold images ips (BGPManager.handoff prefixes nextHop client)
      (fun _ => Toward .cold images ips (.bgp prefixes) (fun _ => True) ips.length ips.length)
      n owed s := by
  apply Honours.seq (enlists_idle ?_ (.forM fun _ => .perform _ _) hs)
  · intro _ n owed s hs
    apply Honours.seq (enlists_idle ?_ ?_ hs)
    · intro _ n owed s hs
      apply (honours_forM (fun k => Toward .cold images ips (.bgp prefixes) (·.waits = k) k
        ips.length) prefixes ?_ ?_).mono
      · intro _ n owed s hd
        rw [hlen] at hd
        exact ⟨trivial, hd.relied, hd.before, hd.last⟩
      · exact fun _ _ _ _ he => he
      · intro k pfx n owed s hk hd
        refine enlists_await (fun n hn => congrArg (· + 1) hn) (fun n v hn => ?_)
          (hd.square (hlen ▸ hk))
        rw [arms, hn]
        rfl
      · exact ⟨hs.tallied, hs.relied, fun _ => hs.owed, fun h => absurd h (Nat.ne_of_lt hne)⟩
    · refine .forM fun pfx _ => .tryCatch (.bind ?_ fun _ => .pure _ _) fun _ => .pure _ _
      cases client with
      | none => exact .throw _ _
      | some _ => exact .perform (idle_of_apart rfl)
    · exact .forM fun pfx => .tryCatch (.bind (keeps_withdrawIP client pfx) fun _ => .pure _ _)
        fun _ => .pure _ _
  · exact .forM fun _ _ => .perform (idle_of_apart rfl)

theorem enlists_stepBgp (hs : Square .cold images ips (·.waits = 0) n owed s) :
    Enlists .cold images ips stepBgp (fun _ => Square .cold images ips fun _ => True)
      n owed s := by
  apply Honours.seq (enlists_transition .bgp 85 hs)
  intro _ n owed s hd
  have hs := (hd (.bgp []) 1).square Nat.one_pos
  have hips : s.ctx.vmIps = ips := hs.relied.2
  rw [honours_bind, honours_read]
  split_ifs with hempty
  · exact ⟨trivial, hs.relied, hs.owed⟩
  · rw [List.isEmpty_iff, hips] at hempty
    have hlen : (prefixes s.ctx).length = ips.length := by rw [prefixes, List.length_map, hips]
    apply (enlists_handoff hlen (List.length_pos_iff.2 hempty) _ _ hs).seq
    exact fun _ _ _ _ hd => hd.register

theorem enlists_steps (hs : Square .cold images ips (Demoting 0) n owed s) :
    Enlists .cold images ips (steps cfg) (closing EngineState.roster) n owed s := by
  apply (enlists_stepDisk hs).seq
  intro _ n owed s hs
  apply (enlists_idle idle_stepCutover (keeps_stepCutover recordBlind_roster) hs).seq
  intro _ n owed s hs
  apply (enlists_stepBgp hs).seq
  exact fun _ _ _ _ hs => enlists_ending 95 hs

end ColdMigrationEngine

namespace LiveMigrationEngine

theorem idle_stepDiskSync : Calls (Idle .live images ips (Demoting 0)) (stepDiskSync cfg) :=
  .bind (idle_transition _ _) fun _ => .bind (.read _) fun _ =>
    .forM fun _ _ => .bind (.perform (idle_of_apart rfl)) fun _ => .pure _ _

theorem idle_tunnelRun (vmId sourceHost destHost : String) :
    Calls (Idle .live images ips (Demoting 0)) (QEMUMigrationTunnel.run vmId sourceHost destHost
      (progressCb .monitor) (progressCb .run)) := by
  exact (calls_tunnelRun vmId sourceHost destHost).mono fun _ => idle_of_within (.inl rfl)

theorem enlists_stepMemory (hs : Square .live images ips (Demoting 0) n owed s) :
    Enlists .live images ips stepMemory (fun _ => Square .live images ips (Demoting 0))
      n owed s := by
  apply Honours.seq (enlists_transition .memory 25 hs)
  intro _ n owed s hd
  have hs := (hd .cutover 1).square Nat.one_pos
  rw [honours_bind, honours_read]
  cases s.ctx.vm with
  | none => exact hs
  | some vm =>
    dsimp only
    split
    · exact hs.owed _
    · exact hs.owed _
    · apply Honours.seq (hd _ 0).register
      intro _ n owed s hs
      exact enlists_idle (idle_tunnelRun _ _ _) (keeps_tunnelRun recordBlind_roster _ _ _) hs

theorem enlists_stepCutover (hs : Square .live images ips (Demoting 0) n owed s) :
    Enlists .live images ips (stepCutover cfg) (fun _ => Square .live images ips fun _ => True)
      n owed s := by
  apply Honours.seq (enlists_transition .cutover 80 hs)
  intro _ n owed s hd
  rw [honours_bind, honours_read]
  have himages : s.ctx.rbdImages = images := (hd .cutover 0).relied.1
  rw [himages]
  apply Honours.seq (honours_forM (fun k => Toward .live images ips .cutover (Demoting k) k
    images.length) images ?_ (hd _ _))
  · intro _ n owed s hd
    apply hd.register.seq
    intro _ n owed s hs
    exact enlists_idle idle_promoteAll keeps_promoteAll ⟨trivial, hs.relied, hs.owed⟩
  · intro k image n owed s hk hd
    exact (enlists_pass rfl hk hd).seq fun _ _ _ _ hd => enlists_demote image hk hd

theorem idle_stepBgp : Calls (Idle .live images ips fun _ => True) stepBgp := by
  apply isStep_stepBgp.calls.mono
  intro c hc
  have happ : c.isApart = true ∨ ∃ pfx, c = .waitConvergence pfx := by
    cases c <;> first | exact .inl rfl | exact .inr ⟨_, rfl⟩ | cases hc
  rcases happ with happ | ⟨pfx, rfl⟩
  · exact idle_of_apart happ
  · intro n hn
    refine ⟨trivial, ?_⟩
    rintro (e | v)
    · rfl
    · rfl

theorem enlists_steps (hs : Square .live images ips (Demoting 0) n owed s) :
    Enlists .live images ips (steps cfg) (closing EngineState.roster) n owed s := by
  apply Honours.seq (enlists_idle idle_stepDiskSync (keeps_stepDiskSync recordBlind_roster) hs)
  intro _ n owed s hs
  apply (enlists_stepMemory hs).seq
  intro _ n owed s hs
  apply (enlists_stepCutover hs).seq
  intro _ n owed s hs
  apply (enlists_idle idle_stepBgp (keeps_stepBgp recordBlind_roster) hs).seq
  exact fun _ _ _ _ hs => enlists_ending 96 hs

end LiveMigrationEngine

/-- What is left of a waiting run will register as `arms` says. -/
def Pending (kind : MigrationType) (s : EngineState) (h : Trace) (c : Call)
    (next : Except PyException c.Reply → Engine Bool) : Prop :=
  ∀ r t, (enlistment kind s.ctx.rbdImages s.ctx.vmIps).rely t.roster →
    Enlists kind s.ctx.rbdImages s.ctx.vmIps (next r) (closing EngineState.roster) ((tally h).add c)
      ((enlistment kind s.ctx.rbdImages s.ctx.vmIps).owed (tally h) ⟨c, r⟩ t.roster) t

theorem Pending.settle {h : Trace} {p : Engine Bool}
    (hp : Enlists kind images ips p (closing EngineState.roster) (tally h) owed s)
    (ho : ∀ v o, owed v o → (enlistment kind images ips).rely v) {c : Call}
    {next : Except PyException c.Reply → Engine Bool}
    (hw : (settle s p).2 = .waiting c next) : Pending kind (settle s p).1 h c next := by
  obtain ⟨hpaid, hnext⟩ := Honours.settle hp
  obtain ⟨rfl, rfl⟩ := ho _ _ hpaid
  exact hnext c next hw

theorem Pending.transfer {t : EngineState} {h k : Trace} {c : Call}
    {next : Except PyException c.Reply → Engine Bool} (hp : Pending kind s h c next)
    (hl : t.roster = s.roster) (hk : tally k = tally h) : Pending kind t k c next := by
  have hi : t.ctx.rbdImages = s.ctx.rbdImages := congrArg Roster.images hl
  have hv : t.ctx.vmIps = s.ctx.vmIps := congrArg Roster.ips hl
  rw [Pending, hi, hv, hk]
  exact hp

/-- The handlers change in the segment after a reply exactly when `arms` says so. -/
theorem Pending.rollbacks_eq_iff {h : Trace} {c : Call}
    {next : Except PyException c.Reply → Engine Bool} (hp : Pending kind s h c next)
    {r : Except PyException c.Reply} (hr : commits ⟨c, r⟩ = false) :
    (Coroutine.settle s (next r)).1.rollbacks = s.rollbacks ↔
      arms kind s.ctx.rbdImages s.ctx.vmIps (tally h) ⟨c, r⟩ = false :=
  (Honours.settle (hp r s ⟨rfl, rfl⟩)).1.2.2 hr

end NovaFederation

import NovaFederation.Ownership
import NovaFederation.RbdCommands
import NovaFederation.StorageSafety

/-!
# The images under the commands

The promotions and demotions of an engine are commands of two clusters. What the engine is told
need not be what has happened: a command that raises may have taken effect, and so may one whose
reply is lost on its way from the peer. As long as neither happens the images are those of
`primaries`; in any case an image is primary on both clusters exactly when the destination has run
its promotion and the source the forced one.
-/

namespace NovaFederation
open Coroutine History CephRBDClient CNFControlServicer

/-- What becomes of a request to a peer. -/
inductive Delivery
  | answered
  | lost (e : PyException)
  | unanswered (e : PyException)

/-- The two clusters. `rbd h side` runs the command of the call that is made after `h`. -/
structure Storage where
  access : Side → CephAccess
  rbd : Trace → Side → RbdWorld
  grpc : Trace → Delivery

namespace Storage
variable (S : Storage)

def world (O : World) : World
  | h, .demote pool image => (run (S.rbd h .source) (demote (S.access .source) pool image) ()).1
  | h, .promote pool image force =>
    (run (S.rbd h .source) (promote (S.access .source) pool image force) ()).1
  | h, .promoteRBDImage peer pool image =>
    match S.grpc h with
    | .answered => (run (S.rbd h peer) (promoteRBDImage (S.access peer) pool image false) ()).1
    | .lost e => .error e
    | .unanswered e => .error e
  | h, c => O h c

def commands (h : Trace) : Call → List (Side × RbdEvent)
  | .demote pool image =>
    (run (S.rbd h .source) (demote (S.access .source) pool image) ()).2.2.map (.source, ·)
  | .promote pool image force =>
    (run (S.rbd h .source) (promote (S.access .source) pool image force) ()).2.2.map (.source, ·)
  | .promoteRBDImage peer pool image =>
    match S.grpc h with
    | .lost _ => []
    | _ => (run (S.rbd h peer) (promoteRBDImage (S.access peer) pool image false) ()).2.2.map
        (peer, ·)
  | _ => []

end Storage

abbrev Mirrors := Side → Images

namespace Mirrors

def initial : Mirrors := fun side _ => decide (side = .source)

def run (eff : RbdEffects) (w : Mirrors) (c : Side × RbdEvent) : Mirrors :=
  fun side => if side = c.1 then eff.apply (w side) c.2 else w side

end Mirrors

namespace Storage
variable (S : Storage) (eff : RbdEffects)

def step (h : Trace) (w : Mirrors) (e : CallEvent) : Mirrors :=
  (S.commands h e.call).foldl (Mirrors.run eff) w

def mirrors (h : Trace) : Mirrors := evolve (S.step eff) .initial h

/-- A call has the cluster run this command, and it takes effect. -/
def Runs (side : Side) (args : List String) (h : Trace) (c : Call) : Prop :=
  ∃ a, (side, a) ∈ S.commands h c ∧ a.call = plainCmd (S.access side) args ∧ eff.took a = true

def HasRun (side : Side) (args : List String) (h : Trace) : Prop :=
  ∃ pre e, pre ++ [e] <+: h ∧ S.Runs eff side args pre e.call

variable {S eff} {h : Trace} {w : Mirrors} {pool image : String} {force : Bool} {side : Side}

theorem commands_demote (h : Trace) (pool image : String) :
    S.commands h (.demote pool image) = [(.source, issued (S.rbd h .source)
      (plainCmd (S.access .source) (demoteArgs pool image)))] := by
  simp only [commands, demote, run_runPlain]
  rfl

theorem commands_promote (h : Trace) (pool image : String) (force : Bool) :
    S.commands h (.promote pool image force) = [(.source, issued (S.rbd h .source)
      (plainCmd (S.access .source) (promoteArgs pool image force)))] := by
  simp only [commands, promote, run_runPlain]
  rfl

theorem commands_promoteRBDImage (h : Trace) (peer : Side) (pool image : String) :
    ((∃ x, S.grpc h = .lost x) ∧ S.commands h (.promoteRBDImage peer pool image) = []) ∨
      S.commands h (.promoteRBDImage peer pool image) = [(peer, issued (S.rbd h peer)
        (plainCmd (S.access peer) (promoteArgs pool image false)))] := by
  cases hgrpc : S.grpc h with
  | lost x => exact .inl ⟨⟨x, rfl⟩, by simp only [commands, hgrpc]⟩
  | answered =>
    right
    simp only [commands, hgrpc, run_promoteRBDImage]
    rfl
  | unanswered x =>
    right
    simp only [commands, hgrpc, run_promoteRBDImage]
    rfl

/-! ### One call -/

section Call
variable {c : Call} {r : Except PyException c.Reply} {a : RbdEvent} {spec : String}

theorem step_of_nil (hc : S.commands h c = []) : S.step eff h w ⟨c, r⟩ = w := by
  rw [step, hc]
  rfl

theorem step_of_took {ran : Side} (hc : S.commands h c = [(ran, a)]) (ht : eff.took a = true)
    (side : Side) (spec : String) : S.step eff h w ⟨c, r⟩ side spec =
      if side = ran then (w side).act a.call spec else w side spec := by
  rw [step, hc, List.foldl_cons, List.foldl_nil, Mirrors.run, RbdEffects.apply, if_pos ht]
  split_ifs <;> rfl

theorem step_of_not_took {ran : Side} (hc : S.commands h c = [(ran, a)])
    (ht : ¬ eff.took a = true) : S.step eff h w ⟨c, r⟩ = w := by
  funext side
  rw [step, hc, List.foldl_cons, List.foldl_nil, Mirrors.run, RbdEffects.apply, if_neg ht]
  exact ite_self _

theorem gained_promote {ran : Side} (hc : S.commands h c =
      [(ran, issued (S.rbd h ran) (plainCmd (S.access ran) (promoteArgs pool image force)))])
    (hno : ¬ w side spec = true) (hyes : S.step eff h w ⟨c, r⟩ side spec = true) :
    side = ran ∧ imageSpec pool image = spec ∧
      S.Runs eff ran (promoteArgs pool image force) h c := by
  by_cases ht : eff.took (issued (S.rbd h ran)
      (plainCmd (S.access ran) (promoteArgs pool image force))) = true
  · rw [step_of_took hc ht] at hyes
    split_ifs at hyes with hside
    · refine ⟨hside, ?_, _, by rw [hc]; exact List.mem_singleton_self _, rfl, ht⟩
      by_contra hspec
      rw [issued, Images.act_promote, Images.set_eq, if_neg (Ne.symm hspec)] at hyes
      exact hno hyes
    · exact absurd hyes hno
  · rw [step_of_not_took hc ht] at hyes
    exact absurd hyes hno

theorem gained (hno : ¬ w side spec = true) (hyes : S.step eff h w ⟨c, r⟩ side spec = true) :
    (side = .source ∧ ∃ pool image force, c = .promote pool image force ∧
        imageSpec pool image = spec ∧ S.Runs eff .source (promoteArgs pool image force) h c) ∨
      ∃ pool image, c = .promoteRBDImage side pool image ∧ imageSpec pool image = spec ∧
        S.Runs eff side (promoteArgs pool image false) h c := by
  cases c with
  | demote pool image =>
    have hc := commands_demote (S := S) h pool image
    by_cases ht : eff.took (issued (S.rbd h .source)
        (plainCmd (S.access .source) (demoteArgs pool image))) = true
    · rw [step_of_took hc ht, issued, Images.act_demote, Images.set_eq] at hyes
      split_ifs at hyes
      · exact absurd hyes hno
      · exact absurd hyes hno
    · rw [step_of_not_took hc ht] at hyes
      exact absurd hyes hno
  | promote pool image force =>
    obtain ⟨hside, hspec, hruns⟩ := gained_promote (commands_promote h pool image force) hno hyes
    exact .inl ⟨hside, pool, image, force, rfl, hspec, hruns⟩
  | promoteRBDImage peer pool image =>
    rcases commands_promoteRBDImage (S := S) h peer pool image with ⟨-, hc⟩ | hc
    · rw [step_of_nil hc] at hyes
      exact absurd hyes hno
    · obtain ⟨rfl, hspec, hruns⟩ := gained_promote hc hno hyes
      exact .inr ⟨pool, image, rfl, hspec, hruns⟩
  | _ => exact absurd hyes hno

theorem lost (hyes : w side spec = true) (hno : ¬ S.step eff h w ⟨c, r⟩ side spec = true) :
    side = .source ∧ ∃ pool image, c = .demote pool image := by
  have hpromoted : ∀ {ran pool image force}, S.commands h c =
      [(ran, issued (S.rbd h ran) (plainCmd (S.access ran) (promoteArgs pool image force)))] →
      False := by
    intro ran pool image force hc
    apply hno
    by_cases ht : eff.took (issued (S.rbd h ran)
        (plainCmd (S.access ran) (promoteArgs pool image force))) = true
    · rw [step_of_took hc ht, issued, Images.act_promote, Images.set_eq]
      split_ifs <;> first | rfl | exact hyes
    · rw [step_of_not_took hc ht]
      exact hyes
  cases c with
  | demote pool image =>
    have hc := commands_demote (S := S) h pool image
    refine ⟨?_, pool, image, rfl⟩
    by_contra hside
    apply hno
    by_cases ht : eff.took (issued (S.rbd h .source)
        (plainCmd (S.access .source) (demoteArgs pool image))) = true
    · rw [step_of_took hc ht, if_neg hside]
      exact hyes
    · rw [step_of_not_took hc ht]
      exact hyes
  | promote pool image force => exact (hpromoted (commands_promote h pool image force)).elim
  | promoteRBDImage peer pool image =>
    rcases commands_promoteRBDImage (S := S) h peer pool image with ⟨-, hc⟩ | hc
    · rw [step_of_nil hc] at hno
      exact absurd hyes hno
    · exact (hpromoted hc).elim
  | _ => exact absurd hyes hno

theorem promoted_of_runs (hr : S.Runs eff side (promoteArgs pool image force) h c) :
    S.step eff h w ⟨c, r⟩ side (imageSpec pool image) = true := by
  obtain ⟨a, ha, hcmd, ht⟩ := hr
  obtain ⟨ran, b, hc⟩ : ∃ ran b, S.commands h c = [(ran, b)] := by
    cases c with
    | demote => exact ⟨_, _, commands_demote h _ _⟩
    | promote => exact ⟨_, _, commands_promote h _ _ _⟩
    | promoteRBDImage peer pool image =>
      rcases commands_promoteRBDImage (S := S) h peer pool image with ⟨-, hc⟩ | hc
      · rw [hc] at ha
        cases ha
      · exact ⟨_, _, hc⟩
    | _ => cases ha
  rw [hc, List.mem_singleton] at ha
  obtain ⟨rfl, rfl⟩ := Prod.mk.inj ha
  rw [step_of_took hc ht, if_pos rfl, hcmd, Images.act_promote]
  exact if_pos rfl

theorem demoted_of_ok {O : World}
    (hreply : S.world O h (.demote pool image) = .ok ()) {r : Except PyException Unit} :
    S.step eff h w ⟨.demote pool image, r⟩ .source (imageSpec pool image) = false := by
  have hc := commands_demote (S := S) h pool image
  have ht : eff.took (issued (S.rbd h .source)
      (plainCmd (S.access .source) (demoteArgs pool image))) = true := by
    have hrun : checkedExit (issued (S.rbd h .source)
        (plainCmd (S.access .source) (demoteArgs pool image))).reply = .ok () := by
      rw [← hreply, world, demote, run_runPlain]
    unfold issued at hrun ⊢
    generalize S.rbd h .source [] _ = reply at hrun
    cases reply with
    | error e => cases hrun
    | ok p =>
      rw [eff.of_exit]
      by_contra hp
      rw [decide_eq_true_iff] at hp
      simp [checkedExit, hp] at hrun
  rw [step_of_took hc ht, if_pos rfl, issued, Images.act_demote]
  exact if_pos rfl

theorem forced_of_runs (hr : S.Runs eff side (promoteArgs pool image true) h c) :
    ∃ pool image, c = .promote pool image true := by
  obtain ⟨a, ha, hcmd, -⟩ := hr
  have hlength : a.call.cmd.length = 9 := by
    rw [hcmd]
    rfl
  cases c with
  | demote pool image =>
    rw [commands_demote, List.mem_singleton] at ha
    obtain ⟨rfl, rfl⟩ := Prod.mk.inj ha
    cases hlength
  | promote pool image force =>
    rw [commands_promote, List.mem_singleton] at ha
    obtain ⟨rfl, rfl⟩ := Prod.mk.inj ha
    cases force with
    | true => exact ⟨pool, image, rfl⟩
    | false => cases hlength
  | promoteRBDImage peer pool image =>
    rcases commands_promoteRBDImage (S := S) h peer pool image with ⟨-, hc⟩ | hc
    · rw [hc] at ha
      cases ha
    · rw [hc, List.mem_singleton] at ha
      obtain ⟨rfl, rfl⟩ := Prod.mk.inj ha
      cases hlength
  | _ => cases ha

end Call

/-! ### The images of a run -/

section Run
variable {kind : MigrationType} {cfg : Settings} {p : Plan} {O : World} {spec : String}

theorem mirrors_snoc (h : Trace) (e : CallEvent) :
    S.mirrors eff (h ++ [e]) = S.step eff h (S.mirrors eff h) e := evolve_snoc _ _ _ _

theorem primary_of_hasRun (hrun : S.HasRun eff side (promoteArgs pool image force) h) :
    S.mirrors eff h side (imageSpec pool image) = true ∨
      side = .source ∧ ∃ pre e mid pool' image' r, pre ++ [e] <+: mid ∧
        S.Runs eff side (promoteArgs pool image force) pre e.call ∧
        mid ++ [⟨.demote pool' image', r⟩] <+: h := by
  obtain ⟨pre, e, ⟨post, rfl⟩, hruns⟩ := hrun
  by_contra hno
  rw [not_or] at hno
  have hthen : S.mirrors eff (pre ++ [e]) side (imageSpec pool image) = true := by
    rw [mirrors_snoc]
    exact promoted_of_runs hruns
  obtain ⟨mid, ⟨c, r⟩, hpre, hmid, hyes, hlost⟩ := evolve_became (S.step eff)
    (fun w => ¬ w side (imageSpec pool image) = true) (not_not.2 hthen) hno.1
  obtain ⟨hside, pool', image', rfl⟩ := lost (not_not.1 hyes) hlost
  exact hno.2 ⟨hside, pre, e, mid, pool', image', r, hpre, hruns, hmid⟩

/-- On the destination an image is primary once a promotion has been run there, and all images
have been demoted before. -/
theorem promotion_of_dest_primary (hr : Respects (Law kind cfg p) h)
    (hdst : S.mirrors eff h .dest (imageSpec cfg.pool image) = true) :
    S.HasRun eff .dest (promoteArgs cfg.pool image false) h ∧ p.hasClient = true ∧
      Has (Demoted cfg image) h := by
  have hstart : ¬ evolve (S.step eff) Mirrors.initial [] .dest (imageSpec cfg.pool image) = true :=
    Bool.false_ne_true
  obtain ⟨mid, ⟨c, r⟩, -, hmid, hno, hyes⟩ := evolve_became (S.step eff)
    (fun w => w .dest (imageSpec cfg.pool image) = true) hstart hdst
  rcases gained hno hyes with ⟨hside, -⟩ | ⟨pool', image', rfl, hspec, hruns⟩
  · cases hside
  · obtain ⟨-, -, -, rfl, hclient, himage, hdem⟩ := (law_forward rfl).1 (hr mid _ hmid)
    obtain rfl := imageSpec_inj.1 hspec
    exact ⟨⟨mid, _, hmid, hruns⟩, hclient,
      (hdem _ himage).extend ((List.prefix_append _ _).trans hmid)⟩

/-- With a client the source takes an image back by force only. -/
theorem promotion_of_source_primary (hr : Respects (Law kind cfg p) h)
    (hreplies : ∀ pre e, pre ++ [e] <+: h → e.reply = S.world O pre e.call)
    (hclient : p.hasClient = true) (hdem : Has (Demoted cfg image) h)
    (hsrc : S.mirrors eff h .source (imageSpec cfg.pool image) = true) :
    S.HasRun eff .source (promoteArgs cfg.pool image true) h := by
  obtain ⟨d, hd, rfl⟩ := hdem
  obtain ⟨u, v, rfl⟩ := List.append_of_mem hd
  rw [← List.singleton_append, ← List.append_assoc] at hr hreplies hsrc ⊢
  have hdemoted : ¬ S.mirrors eff (u ++ [⟨.demote cfg.pool image, .ok ()⟩]) .source
      (imageSpec cfg.pool image) = true := by
    rw [mirrors_snoc, demoted_of_ok (hreplies u _ (List.prefix_append _ _)).symm]
    exact Bool.false_ne_true
  obtain ⟨mid, ⟨c, r⟩, -, hmid, hno, hyes⟩ := evolve_became (S.step eff)
    (fun w => w .source (imageSpec cfg.pool image) = true) hdemoted hsrc
  rcases gained hno hyes with ⟨-, pool', image', force, rfl, hspec, hruns⟩ |
    ⟨pool', image', rfl, -, -⟩
  · cases force with
    | true =>
      refine ⟨mid, _, hmid, ?_⟩
      rwa [promoteArgs, hspec] at hruns
    | false =>
      obtain ⟨-, -, -, hnone, -⟩ := (law_forward rfl).1 (hr mid _ hmid)
      rw [hclient] at hnone
      cases hnone
  · obtain ⟨-, -, hpeer, -⟩ := (law_forward rfl).1 (hr mid _ hmid)
    cases hpeer

/-- No image is demoted after a handler has been called. -/
theorem source_primary_of_forced (hr : Respects (Law kind cfg p) h)
    (hrun : S.HasRun eff .source (promoteArgs pool image true) h) :
    S.mirrors eff h .source (imageSpec pool image) = true := by
  rcases primary_of_hasRun hrun with hyes |
    ⟨-, pre, ⟨c, r⟩, mid, pool', image', r', hpre, hruns, hmid⟩
  · exact hyes
  · obtain ⟨pool'', image'', rfl⟩ := forced_of_runs hruns
    have hclean := ((law_forward rfl).1 (hr mid _ hmid)).1
    have hmem := hpre.subset (List.mem_append_right pre (List.mem_singleton_self _))
    exact absurd (hclean _ hmem).1 Bool.false_ne_true

/-- Whatever the engine is told, an image is primary on both clusters exactly when the destination
has run its promotion and the source the forced one. -/
theorem both_primary_iff_hasRun (kind : MigrationType) (cfg : Settings) (ctx : MigrationContext)
    (S : Storage) (eff : RbdEffects) (O : World) :
    Throughout (fun h => ∀ image,
      S.mirrors eff h .source (imageSpec cfg.pool image) = true ∧
          S.mirrors eff h .dest (imageSpec cfg.pool image) = true ↔
        S.HasRun eff .dest (promoteArgs cfg.pool image false) h ∧
          S.HasRun eff .source (promoteArgs cfg.pool image true) h)
      (kind.migrate cfg ctx (S.world O)).trace := by
  intro h hh image
  have hr := (law_run kind cfg ctx (S.world O)).restrict hh
  have hreplies : ∀ pre e, pre ++ [e] <+: h → e.reply = S.world O pre e.call :=
    fun pre e hpre => reply_of_run (hpre.trans hh)
  constructor
  · rintro ⟨hsrc, hdst⟩
    obtain ⟨hrun, hclient, hdem⟩ := promotion_of_dest_primary hr hdst
    exact ⟨hrun, promotion_of_source_primary hr hreplies hclient hdem hsrc⟩
  · rintro ⟨hdst, hsrc⟩
    refine ⟨source_primary_of_forced hr hsrc, ?_⟩
    rcases primary_of_hasRun hdst with hyes | ⟨hside, -⟩
    · exact hyes
    · cases hside

/-- The engine is told what has happened. -/
def Told (S : Storage) : Prop := ∀ h x, S.grpc h ≠ .unanswered x

theorem took_unstarted (e : RbdEvent) :
    RbdEffects.unstarted.took e = (checkedExit e.reply).isOk := by
  obtain ⟨c, x | p⟩ := e
  · rfl
  · by_cases hp : p.returncode = 0
    · simp [RbdEffects.unstarted, checkedExit, hp, Except.isOk, Except.toBool]
    · simp [RbdEffects.unstarted, checkedExit, hp, Except.isOk, Except.toBool]

def Agree (pool : String) (w : Mirrors) (d : Primaries) : Prop :=
  ∀ side image, w side (imageSpec pool image) = d side pool image

theorem Agree.run {pool : String} {d : Primaries} (hag : Agree pool w d) {ran : Side}
    {primary : Bool} {c : Call} {a : RbdEvent} (hc : S.commands h c = [(ran, a)])
    (hact : ∀ v : Images, v.act a.call = v.set (imageSpec pool image) primary)
    (r : Except PyException c.Reply) :
    Agree pool (S.step .unstarted h w ⟨c, r⟩)
      (if (checkedExit a.reply).isOk then d.set ran pool image primary else d) := by
  rw [← took_unstarted]
  cases ht : RbdEffects.unstarted.took a with
  | false =>
    rw [step_of_not_took hc (by rw [ht]; exact Bool.false_ne_true)]
    exact hag
  | true =>
    intro side image'
    rw [step_of_took hc ht, hact, Images.set_eq, hag side image']
    simp only [imageSpec_inj]
    by_cases hside : side = ran
    · by_cases himage : image' = image
      · simp [Primaries.set, hside, himage]
      · simp [Primaries.set, hside, himage]
    · simp [Primaries.set, hside]

theorem agree_step (htold : S.Told) {ctx : MigrationContext} {e : CallEvent} {d : Primaries}
    (hag : Agree cfg.pool w d) (hreply : e.reply = S.world O h e.call)
    (hminds : e.call.Minds cfg ctx h) :
    Agree cfg.pool (S.step .unstarted h w e) (d.apply e) := by
  obtain ⟨c, r⟩ := e
  have hr : r = S.world O h c := hreply
  subst hr
  cases c with
  | demote pool image =>
    obtain rfl : pool = cfg.pool := hminds.1
    have hrun := hag.run (commands_demote (S := S) h cfg.pool image) fun v => Images.act_demote v
    simp only [world, demote, run_runPlain]
    cases hx : checkedExit (issued (S.rbd h .source)
        (plainCmd (S.access .source) (demoteArgs cfg.pool image))).reply with
    | error x =>
      rw [hx] at hrun
      exact hrun _
    | ok v =>
      rw [hx] at hrun
      exact hrun _
  | promote pool image force =>
    obtain rfl : pool = cfg.pool := hminds.1
    have hrun := hag.run (commands_promote (S := S) h cfg.pool image force)
      fun v => Images.act_promote v
    simp only [world, promote, run_runPlain]
    cases hx : checkedExit (issued (S.rbd h .source)
        (plainCmd (S.access .source) (promoteArgs cfg.pool image force))).reply with
    | error x =>
      rw [hx] at hrun
      exact hrun _
    | ok v =>
      rw [hx] at hrun
      exact hrun _
  | promoteRBDImage peer pool image =>
    obtain ⟨-, rfl, -⟩ : peer = .dest ∧ pool = cfg.pool ∧ image ∈ ownImages h := hminds
    rcases commands_promoteRBDImage (S := S) h peer cfg.pool image with ⟨⟨x, hgrpc⟩, hc⟩ | hc
    · simp only [world, hgrpc]
      rw [step_of_nil hc]
      exact hag
    · have hrun := hag.run hc fun v => Images.act_promote v
      cases hgrpc : S.grpc h with
      | unanswered x => exact absurd hgrpc (htold h x)
      | lost x =>
        simp only [commands, hgrpc] at hc
        cases hc
      | answered =>
        simp only [world, hgrpc, run_promoteRBDImage, promote, run_runPlain]
        cases hx : checkedExit (issued (S.rbd h peer)
            (plainCmd (S.access peer) (promoteArgs cfg.pool image false))).reply with
        | error x =>
          rw [hx] at hrun
          exact hrun _
        | ok v =>
          rw [hx] at hrun
          exact hrun _
  | _ => exact hag

/-- As long as what raises has not happened and no reply is lost, the images are what the replies
say. -/
theorem mirrors_eq_primaries (kind : MigrationType) (cfg : Settings) (ctx : MigrationContext)
    (hfresh : ctx.Fresh) (S : Storage) (htold : S.Told) (O : World) :
    Throughout (fun h => ∀ side image, S.mirrors .unstarted h side (imageSpec cfg.pool image) =
        primaries h side cfg.pool image)
      (kind.migrate cfg ctx (S.world O)).trace := by
  have hminds := run_minds kind cfg ctx hfresh (S.world O)
  intro h hh
  induction h using List.reverseRecOn with
  | nil => exact fun side image => rfl
  | append_singleton h e ih =>
    have hag := ih ((List.prefix_append _ _).trans hh)
    rw [mirrors_snoc, primaries_snoc]
    exact agree_step htold hag (reply_of_run hh) (hminds h e hh)

/-- Every command exits with zero, and so the peer answers the promotions with `deliver`. -/
def ready (deliver : Delivery) : Storage where
  access _ := ⟨"/etc/ceph/ceph.conf", "/etc/ceph/keyring", "client.cinder"⟩
  rbd _ _ _ _ := .ok ⟨0, ""⟩
  grpc _ := deliver

theorem mirrors_eq_primaries_ready : Throughout (fun h => ∀ side image,
      (ready .answered).mirrors .unstarted h side (imageSpec "rbd" image) =
        primaries h side "rbd" image)
    (MigrationType.live.migrate settings (connected .live)
      ((ready .answered).world (cooperative twoVolumes))).trace :=
  mirrors_eq_primaries .live settings (connected .live) (by decide) (ready .answered) nofun
    (cooperative twoVolumes)

/-- A promotion whose reply is lost is taken back by the handler: the engine has not been told of
any image on the destination, and one is primary on both. -/
example :
    let run := MigrationType.live.migrate settings (connected .live)
      ((ready (.unanswered ⟨.other, "deadline exceeded"⟩)).world (cooperative twoVolumes))
    primaries run.trace .dest "rbd" "volume-a" = false ∧
      ∀ side, (ready (.unanswered ⟨.other, "deadline exceeded"⟩)).mirrors .unstarted run.trace side
        "rbd/volume-a" = true := by
  refine ⟨by decide, fun side => ?_⟩
  cases side
  · decide
  · decide

end Run

end Storage

end NovaFederation

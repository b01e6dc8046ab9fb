import AuthMap.Cli.Plan
import AuthMap.Proofs.Cli.Printing
import AuthMap.Proofs.Cluster.Writes
import AuthMap.Proofs.Store.Assignment
import AuthMap.Proofs.Store.Halves

/-! All or nothing. A command that changes the mapping ends with one accepted write, or fails and
leaves the cluster as it was; an operation on a store that fails leaves the store as it was. -/

namespace AuthMap

/-- The object that a resource would replace can be read. -/
def Resource.Backed (c : Cluster) (r : Resource) : Prop :=
  r.exists? = true → ∀ m, c.object? r.ns r.name = some m → ∃ held, ofConfigMap m = .ok held

namespace Gateway

variable {g : Gateway} {r : Resource} {c c' : Cluster} {m : ConfigMap}

theorem Fetches.backed (h : g.Fetches c r) (hc : c.Filed) : r.Backed c := by
  intro hr m hm
  rcases h with rfl | ⟨m', hobject, hread⟩
  · cases hr
  · obtain ⟨hns, hname⟩ := hc _ _ _ _ hobject hread
    rw [hns, hname, hobject] at hm
    obtain rfl := Option.some.inj hm
    exact ⟨r, hread⟩

theorem Accepted.ofConfigMap_eq_ok (h : Accepted r c m c') (hr : r.Backed c) :
    ∃ r', Resource.ofConfigMap m = .ok r' := by
  -- the UID that the object is written with can be read
  obtain ⟨uid, u, huid, hm⟩ : ∃ uid u, (uid.orEmpty (.str "")).asString ["uid"] = .ok u ∧
      m = (c.write r.ns r.name uid r.toConfigMap).1 := by
    cases h with
    | created hexists hobject hwrite =>
      refine ⟨_, c.freshUid, ?_, (congrArg Prod.fst hwrite).symm⟩
      rw [Json.orEmpty_str, Json.asString_str]
    | replaced m₀ hexists hobject hversion hwrite =>
      obtain ⟨held, hheld⟩ := hr hexists m₀ hobject
      obtain ⟨-, -, huid, -⟩ := Resource.ofConfigMap_eq_ok hheld
      exact ⟨_, held.uid, huid, (congrArg Prod.fst hwrite).symm⟩
  rw [hm]
  exact ⟨_, Resource.ofConfigMap_written r huid (some _)⟩

end Gateway

/-! ### All or nothing -/

namespace Work

variable {α β : Type} {σ σ₁ : Session}

/-- Success with one accepted write, or failure with the cluster as it was. -/
def AllOrNothing (w : Work α) (σ : Session) : Prop :=
  match w σ with
  | .ok _ σ' => σ.WroteOnce σ' ∧ σ'.cluster.Filed
  | .error _ σ' => σ.WroteNothing σ'

theorem allOrNothing_of_ok {w : Work α} {a : α} {σ' : Session} (h : w σ = .ok a σ')
    (hwrote : σ.WroteOnce σ') (hfiled : σ'.cluster.Filed) : w.AllOrNothing σ := by
  rw [AllOrNothing, h]
  exact ⟨hwrote, hfiled⟩

theorem allOrNothing_of_error {w : Work α} {t : Trouble} {σ' : Session} (h : w σ = .error t σ')
    (hwrote : σ.WroteNothing σ') : w.AllOrNothing σ := by
  rw [AllOrNothing, h]
  exact hwrote

theorem AllOrNothing.after {x : Work α} {f : α → Work β} {a : α} (hx : x σ = .ok a σ₁)
    (hσ : σ.Untouched σ₁) (h : (f a).AllOrNothing σ₁) : (x >>= f).AllOrNothing σ := by
  unfold AllOrNothing at h ⊢
  rw [bind_of_ok hx]
  cases hf : f a σ₁ with
  | ok b σ' =>
    rw [hf] at h
    exact ⟨h.1.after hσ, h.2⟩
  | error t σ' =>
    rw [hf] at h
    exact h.after hσ

/-- What follows must not fail any more, and must not touch the cluster. -/
theorem AllOrNothing.before {w : Work α} {f : α → Work β} (h : w.AllOrNothing σ)
    (hf : ∀ a σ, ∃ b σ', f a σ = .ok b σ' ∧ σ.Untouched σ') : (w >>= f).AllOrNothing σ := by
  unfold AllOrNothing at h
  cases hw : w σ with
  | ok a σ₁ =>
    rw [hw] at h
    obtain ⟨hwrote, hfiled⟩ := h
    obtain ⟨b, σ₂, hb, huntouched⟩ := hf a σ₁
    refine allOrNothing_of_ok ((bind_of_ok hw).trans hb) (hwrote.before huntouched) ?_
    rwa [huntouched.cluster]
  | error t σ₁ =>
    rw [hw] at h
    exact allOrNothing_of_error (bind_of_error hw) h

end Work

namespace Gateway

variable {σ : Session}

/-- A fetch, a call on what has been fetched, and a save of what that gives. -/
def change (g : Gateway) (c : Call) : Work (Answer × Resource) := do
  let (a, r) ← c.perform (← g.fetch)
  pure (a, ← g.save r)

theorem allOrNothing_save (g : Gateway) {r : Resource} (hσ : σ.cluster.Filed)
    (hr : r.Backed σ.cluster) : (g.save r).AllOrNothing σ := by
  obtain ⟨x, σ', hsave, ⟨hwrote, t, rfl⟩ | ⟨m, hwrote, haccepted, rfl⟩⟩ := save_cases g r σ
  · exact Work.allOrNothing_of_error hsave hwrote
  · obtain ⟨r', hm⟩ := haccepted.ofConfigMap_eq_ok hr
    rw [hm] at hsave
    exact Work.allOrNothing_of_ok hsave hwrote (haccepted.filed hσ)

theorem allOrNothing_change (g : Gateway) (c : Call) (hσ : σ.cluster.Filed) :
    (g.change c).AllOrNothing σ := by
  obtain ⟨x, σ₁, hfetch, hσ₁, hx⟩ := fetch_cases g σ
  cases x with
  | error t => exact Work.allOrNothing_of_error (Work.bind_of_error hfetch) hσ₁.wroteNothing
  | ok r =>
    refine Work.AllOrNothing.after hfetch hσ₁ ?_
    have hperform := congrFun (c.perform_eq_told r) σ₁
    cases heffect : c.effect r with
    | error t =>
      rw [heffect] at hperform
      exact Work.allOrNothing_of_error (Work.bind_of_error hperform)
        (Session.Untouched.refl σ₁).wroteNothing
    | ok e =>
      rw [heffect] at hperform
      refine Work.AllOrNothing.after hperform (σ₁.untouched_logged e.2) ?_
      -- the call changes no more than the data, so what it gives is backed as what was fetched
      have hbacked : (r.withData e.1.2).Backed σ.cluster := (hx r rfl).backed hσ
      have hcluster : (σ₁.logged e.2).cluster = σ.cluster := hσ₁.cluster
      rw [← hcluster] at hσ hbacked
      exact (g.allOrNothing_save hσ hbacked).before fun r σ => ⟨_, σ, rfl, .refl σ⟩

/-! ### Node groups -/

variable (g : Gateway) (arn : Text) (group : String)

theorem addNodeGroup_eq :
    g.addNodeGroup arn group = (do
      let (_, r) ← g.change (.addIdentity (.text arn) Identity.nodeUsername Identity.nodeGroups)
      emitNodeGroup "nodegroup_mapping_saved" group arn
      pure r) := by
  simp only [addNodeGroup, change, Call.perform, bind_assoc, pure_bind]

theorem removeNodeGroup_of_ne (harn : arn ≠ []) :
    g.removeNodeGroup arn group = (do
      let (_, r) ← g.change (.removeIdentity (.text arn) false)
      emitNodeGroup "nodegroup_mapping_removed" group arn
      pure r) := by
  have hempty : arn.isEmpty = false := by simpa using harn
  simp only [removeNodeGroup, hempty, change, Call.perform, bind_assoc, pure_bind]
  rfl

theorem allOrNothing_addNodeGroup (hσ : σ.cluster.Filed) :
    (g.addNodeGroup arn group).AllOrNothing σ := by
  rw [addNodeGroup_eq]
  exact (g.allOrNothing_change _ hσ).before fun x σ => ⟨_, _, rfl, σ.untouched_logged _⟩

theorem allOrNothing_removeNodeGroup (hσ : σ.cluster.Filed) :
    (g.removeNodeGroup arn group).AllOrNothing σ := by
  cases arn with
  | nil =>
    exact Work.allOrNothing_of_error rfl (Session.Untouched.refl σ).wroteNothing
  | cons p arn =>
    rw [removeNodeGroup_of_ne g (p :: arn) group nofun]
    exact (g.allOrNothing_change _ hσ).before fun x σ => ⟨_, _, rfl, σ.untouched_logged _⟩

end Gateway

/-! ### The command line -/

namespace Cli

variable {σ σ' : Session} {c : Command} {call : Call}

/-- The call that a command makes between its fetch and its save. A listing saves nothing. -/
def Command.call? : Command → Option Call
  | .get _ _ => none
  | .create arn username groups => some (.addIdentity (.text arn) username groups)
  | .delete arn all => some (.removeIdentity (.text arn) all)
  | .addAccount account => some (.addAccount account)
  | .removeAccount account => some (.removeAccount account)

/-- The principal or the account that a command is about. -/
def Command.subject : Command → Text
  | .get arn _ => arn.getD []
  | .create arn _ _ | .delete arn _ => arn
  | .addAccount account | .removeAccount account => account

/-- What a command prints when its call has been answered and its save has been accepted. -/
def Command.text (c : Command) (a : Answer) : Text :=
  match c with
  | .get _ _ => []
  | .create arn _ _ => "Added identity mapping for " ++ arn ++ "\n"
  | .delete arn _ => "Removed " ++ toString a.number ++ " identity mapping(s) for " ++ arn ++ "\n"
  | .addAccount account => "Added account " ++ account ++ "\n"
  | .removeAccount account => "Removed account " ++ account ++ "\n"

/-- All that a command prints is a string but for what the command is about. -/
theorem Command.isWhole_text (h : c.call? = some call) (a : Answer) :
    (c.text a).IsWhole ↔ c.subject.IsWhole := by
  cases c with
  | get arn format => cases h
  | create | delete | addAccount | removeAccount =>
    simp only [text, subject, Text.isWhole_append, Text.isWhole_ofString, true_and, and_true]

theorem Command.execute_eq (h : c.call? = some call) (g : Gateway) :
    c.execute g = (do
      let (a, _) ← g.change call
      pure (c.text a)) := by
  cases c with
  | get arn format => cases h
  | create | delete | addAccount | removeAccount =>
    obtain rfl := Option.some.inj h
    simp only [execute, Gateway.change, Call.perform, bind_assoc, pure_bind]
    rfl

theorem Command.allOrNothing_connected (h : c.call? = some call)
    (connect : Gateway → Except StoreError Gateway) (config : Config) (hσ : σ.cluster.Filed) :
    (c.connected connect config).AllOrNothing σ := by
  unfold connected
  cases connect { config } with
  | error e => exact Work.allOrNothing_of_error rfl (Session.Untouched.refl σ).wroteNothing
  | ok g =>
    refine Work.AllOrNothing.after rfl (Session.Untouched.refl σ) ?_
    rw [execute_eq h g]
    exact (g.allOrNothing_change call hσ).before fun x σ => ⟨_, σ, rfl, .refl σ⟩

theorem Command.text_of_connected (h : c.call? = some call)
    {connect : Gateway → Except StoreError Gateway} {config : Config} {text : Text}
    (hrun : c.connected connect config σ = .ok text σ') : ∃ a, text = c.text a := by
  unfold connected at hrun
  cases hconnect : connect { config } with
  | error e =>
    rw [hconnect] at hrun
    cases hrun
  | ok g =>
    rw [hconnect] at hrun
    obtain ⟨g', σ₁, hg, hexecute⟩ := Work.bind_eq_ok.mp hrun
    rw [execute_eq h] at hexecute
    obtain ⟨⟨a, r⟩, σ₂, -, htext⟩ := Work.bind_eq_ok.mp hexecute
    cases htext
    exact ⟨a, rfl⟩

theorem exitCode_ofTrouble_ne (t : Trouble) : (Report.ofTrouble t).exitCode ≠ .success := by
  cases t with
  | store e => cases e <;> simp [Report.ofTrouble, exitCodeFor]
  | _ => simp [Report.ofTrouble]

theorem code_eq_zero {e : ExitCode} : e.code = 0 ↔ e = .success := by cases e <;> decide

/-- The run of a command ends with zero if its write has been accepted and it can say so. -/
theorem Plan.report_run (h : c.call? = some call) {connect : Gateway → Except StoreError Gateway}
    {config : Config} {level : Level} {r : Report} (hσ : σ.cluster.Filed)
    (hreport : Plan.report connect (.run config level c) σ = (r, σ')) :
    (σ.WroteOnce σ' ∨ σ.WroteNothing σ') ∧ σ'.cluster.Filed ∧
      (r.exitCode.code = 0 ↔ σ.WroteOnce σ' ∧ c.subject.IsWhole) ∧
      (σ.WroteOnce σ' → ¬ c.subject.IsWhole → ∃ a, r =
        { exitCode := .general, escaped := some (unwritten (c.text a).uncontrolled) }) := by
  have hconnected := Command.allOrNothing_connected h connect config hσ
  unfold Work.AllOrNothing at hconnected
  unfold Plan.report at hreport
  cases hrun : c.connected connect config σ with
  | ok text σ₁ =>
    simp only [hrun, Prod.mk.injEq] at hreport hconnected
    obtain ⟨rfl, rfl⟩ := hreport
    obtain ⟨hwrote, hfiled⟩ := hconnected
    obtain ⟨a, rfl⟩ := Command.text_of_connected h hrun
    have hwhole := Command.isWhole_text h a
    refine ⟨Or.inl hwrote, hfiled, ?_, fun _ hhalf => ⟨a, Report.ofText_of_not_isWhole ?_⟩⟩
    · rw [and_iff_right hwrote, ← hwhole, code_eq_zero]
      exact Report.exitCode_ofText_eq_success_iff
    · exact mt hwhole.mp hhalf
  | error t σ₁ =>
    simp only [hrun, Prod.mk.injEq] at hreport hconnected
    obtain ⟨rfl, rfl⟩ := hreport
    have hcode : (Report.ofTrouble t).exitCode.code ≠ 0 := fun hzero =>
      exitCode_ofTrouble_ne t (code_eq_zero.mp hzero)
    refine ⟨Or.inr hconnected, ?_, iff_of_false hcode fun hwrote => ?_, fun hwrote => ?_⟩
    · rwa [hconnected.1]
    · exact hconnected.not_wroteOnce hwrote.1
    · exact absurd hwrote hconnected.not_wroteOnce

end Cli

/-- All or nothing, whatever the cluster holds, as long as its objects say where they are kept, and
whichever requests fail. An operation on a store does what its call does, and if it fails it leaves
the store as it was. To add or to remove a node group, and to carry out a command other than a
listing, asks for one write at most: either that write is accepted, or the cluster stays as it was.
The exit code of a command is zero if and only if its write has been accepted, but where the command
is about a text with a half in it. It has no message then that can be printed, and the run ends as
failed after the write. -/
theorem allOrNothing_of_filed {σ : Session} (hσ : σ.cluster.Filed) :
    (∀ call, (Store.perform call).FailsInPlace ∧
      Store.perform call = Store.replacing fun s => call.perform s.held) ∧
    (Store.save.FailsInPlace ∧
      Store.save = Store.replacing fun s => (do
        let r ← s.gateway.save s.held
        pure (r, r))) ∧
    (∀ (g : Gateway) (arn : Text) (group : String),
      (g.addNodeGroup arn group).AllOrNothing σ ∧ (g.removeNodeGroup arn group).AllOrNothing σ) ∧
    ∀ (connect : Gateway → Except StoreError Gateway) (config : Config) (level : Level)
      (c : Cli.Command) (call : Call) (report : Cli.Report) (σ' : Session),
      c.call? = some call → Cli.Plan.report connect (.run config level c) σ = (report, σ') →
        (σ.WroteOnce σ' ∨ σ.WroteNothing σ') ∧ σ'.cluster.Filed ∧
        ((report.exitCode.code = 0 ↔ σ.WroteOnce σ') ↔
          c.subject.IsWhole ∨ σ.WroteNothing σ') ∧
        (σ.WroteOnce σ' → ¬ c.subject.IsWhole → ∃ a, report =
          { exitCode := .general, escaped := some (Cli.unwritten (c.text a).uncontrolled) }) := by
  refine ⟨fun call => ?_, ⟨Store.failsInPlace_save, Store.save_eq_replacing⟩,
    fun g arn group => ?_, ?_⟩
  · exact ⟨Store.failsInPlace_perform call, Store.perform_eq_replacing call⟩
  · exact ⟨g.allOrNothing_addNodeGroup arn group hσ, g.allOrNothing_removeNodeGroup arn group hσ⟩
  · intro connect config level c call report σ' hc hreport
    obtain ⟨hwrites, hfiled, hcode, hhalf⟩ := Cli.Plan.report_run hc hσ hreport
    refine ⟨hwrites, hfiled, ?_, hhalf⟩
    rw [hcode]
    constructor
    · intro hsame
      exact hwrites.imp_left (fun hwrote => (hsame.mpr hwrote).2)
    · rintro (hwhole | hnothing)
      · exact and_iff_left hwhole
      · exact iff_of_false (fun h => hnothing.not_wroteOnce h.1) hnothing.not_wroteOnce

/-- The roles cannot be read. No role can be added then, but an account can, unless the write meets
a failure. -/
theorem allOrNothing_of_filed_corrupt :
    let m : ConfigMap := {
      name := .str objectName, ns := .str objectNamespace, uid := .str "u", version := .str "1"
      data := .ofTexts [(rolesKey, "[")] }
    let σ : Session := { cluster := ({} : Cluster).seed objectNamespace objectName m }
    let broken : Session := { σ with failures := [(.replace, .api (some 500) none)] }
    let run (c : Cli.Command) (σ : Session) :=
      Cli.Plan.report (fun g => .ok { g with api := true }) (.run {} .warning c) σ
    let create := Cli.Command.create "arn:aws:iam::1:role/ops" "ops" []
    σ.WroteNothing (run create σ).2 ∧ σ.WroteOnce (run (.addAccount "1") σ).2 ∧
      broken.WroteNothing (run (.addAccount "1") broken).2 := by
  intro m σ broken run create
  have hfiled : σ.cluster.Filed := by
    refine Cluster.filed_put nofun fun r hr => ?_
    obtain ⟨hname, hns, -⟩ := Resource.ofConfigMap_eq_ok hr
    exact ⟨(Json.str_asString_eq_ok hns).symm, (Json.str_asString_eq_ok hname).symm⟩
  have hcommands (σ' : Session) (hσ' : σ'.cluster.Filed) (c : Cli.Command) (call : Call)
      (hc : c.call? = some call) :=
    (allOrNothing_of_filed hσ').2.2.2 _ {} .warning c call (run c σ').1 (run c σ').2 hc rfl
  obtain ⟨hcreated, -, hcreate, -⟩ := hcommands σ hfiled create _ rfl
  obtain ⟨-, -, hadd, -⟩ := hcommands σ hfiled (.addAccount "1") _ rfl
  obtain ⟨hfailed, -, hbroken, -⟩ := hcommands broken hfiled (.addAccount "1") _ rfl
  refine ⟨hcreated.resolve_left fun h => ?_, (hadd.mpr (Or.inl ⟨"1", rfl⟩)).mp ?_,
    hfailed.resolve_left fun h => ?_⟩
  · exact absurd ((hcreate.mpr (Or.inl ⟨_, rfl⟩)).mpr h) (by decide +kernel)
  · decide +kernel
  · exact absurd ((hbroken.mpr (Or.inl ⟨_, rfl⟩)).mpr h) (by decide +kernel)

/-- An account is given that is a byte and no text. It is added, and the run fails. -/
theorem not_exits_zero_half :
    let account : Text := [.half 0x4FF]
    let w : Cli.Surroundings := { homes := { own := "/root" }, file? := fun _ => none }
    let connect (g : Gateway) : Except StoreError Gateway := .ok { g with api := true }
    let run := (Cli.Plan.ofArgs w ["add-account", account]).report connect {}
    let fault :=
      "'utf-8' codec can't encode character '\\udcff' in position 14: surrogates not allowed"
    ({} : Session).WroteOnce run.2 ∧ run.1.exitCode.code = 1 ∧
      run.1.escaped = some (.raised (.other "UnicodeEncodeError" (some fault))) := by
  intro account w connect run fault
  have hplan : Cli.Plan.ofArgs w ["add-account", account] =
      .run {} .warning (.addAccount account) := by decide +kernel
  have hreport : Cli.Plan.report connect (.run {} .warning (.addAccount account)) {} =
      (run.1, run.2) := by rw [← hplan]
  have hfiled : ({} : Session).cluster.Filed := nofun
  obtain ⟨hwrites, -⟩ := Cli.Plan.report_run (c := .addAccount account) rfl hfiled hreport
  refine ⟨hwrites.resolve_right fun hnothing => ?_, by decide +kernel, by decide +kernel⟩
  exact absurd (congrArg Cluster.nextVersion hnothing.1) (by decide +kernel)

end AuthMap

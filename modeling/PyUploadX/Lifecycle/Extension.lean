import Mathlib.Algebra.Ring.Int.Defs
import PyUploadX.Lifecycle.FullTerm
import PyUploadX.Lifecycle.LegalHold
import PyUploadX.Sdk.UploadDirectory

/-! Extensions. The new end is computed from the completion of the file and the number of seconds
in its row; the number of seconds that is asked for goes into a field that no running mode
reads. -/
namespace PyUploadX

open Kit LifecycleService

variable {σ : Type}

/-- What an extension says of the file itself. -/
def FileObject.wishes (file : FileObject) : LifecycleRequest where
  mode := some file.lifecycleMode.value
  action := some file.lifecycleAction.value
  ttlSeconds := file.ttlSeconds

section Renewal

variable (app : AppState σ) (file : FileObject)

def renewedMode : String :=
  modeAsked (some file.wishes) app.settings.lifecycle.defaultPolicy app.settings.lifecycle.policy

def renewedAction : String :=
  actionAsked (some file.wishes) app.settings.lifecycle.defaultPolicy app.settings.lifecycle.policy

def renewedTtl : Option Int :=
  ttlAsked (some file.wishes) app.settings.lifecycle.defaultPolicy app.settings.lifecycle.policy

/-- The policy grants an extension of the file, by whatever number of seconds. -/
structure Renewable : Prop where
  loads : file.loadable = true
  mode : renewedMode app file ∈ app.settings.lifecycle.policy.allowedModes
  action : renewedAction app file ∈ app.settings.lifecycle.policy.allowedActions
  permitted : renewedMode app file = "permanent" →
    app.settings.lifecycle.policy.permanentAllowed = true
  unfixed : renewedMode app file ≠ "expires_at"
  ttl : renewedMode app file ∈ runningModes → ∃ ttl, renewedTtl app file = some ttl ∧
    app.settings.lifecycle.policy.Allows ttl ∧ inCalendar (file.completedAt + seconds ttl) = true

/-- The extended file can be extended once more. -/
structure RenewableAgain : Prop extends Renewable app file where
  running : renewedMode app file ∈ runningModes
  listed : (LifecycleAction.ofText (renewedAction app file)).listed = true

/-- The policy that an extension leaves. -/
def renewal : EffectiveLifecycle where
  mode := renewedMode app file
  action := renewedAction app file
  ttlSeconds := if renewedMode app file ∈ runningModes then renewedTtl app file else none
  expiresAt := if renewedMode app file ∈ runningModes then
    (renewedTtl app file).map (file.completedAt + seconds ·) else none

end Renewal

variable {app : AppState σ} {file : FileObject}

theorem LifecycleMode.ofText_value {mode : LifecycleMode} (listed : mode.listed = true) :
    LifecycleMode.ofText mode.value = mode := by
  cases mode with
  | unlisted text => cases listed
  | _ => rfl

theorem LifecycleAction.ofText_value {action : LifecycleAction} (listed : action.listed = true) :
    LifecycleAction.ofText action.value = action := by
  cases action with
  | unlisted text => cases listed
  | _ => rfl

private theorem LifecycleMode.value_running {mode : LifecycleMode} (running : mode.running = true) :
    mode.value ∈ runningModes := by
  cases mode with
  | ttl => decide
  | temporary => decide
  | slidingTtl => decide
  | _ => cases running

private theorem runningModes_ne {mode : String} (running : mode ∈ runningModes) :
    mode ≠ "" ∧ mode ≠ "permanent" ∧ mode ≠ "expires_at" := by
  simp only [runningModes, List.mem_cons, List.not_mem_nil, or_false] at running
  rcases running with rfl | rfl | rfl <;> decide

theorem renewedMode_of_override (override : app.settings.lifecycle.policy.allowClientOverride = true)
    (running : file.lifecycleMode.running = true) :
    renewedMode app file = file.lifecycleMode.value := by
  unfold renewedMode modeAsked heard
  rw [if_pos override]
  exact if_neg (runningModes_ne (LifecycleMode.value_running running)).1

/-- What the policy is asked does not depend on the number of seconds. -/
theorem extension_asked (app : AppState σ) (file : FileObject) (extendSeconds : Int) (now : Timestamp) :
    modeAsked (some (extensionRequest file extendSeconds now)) app.settings.lifecycle.defaultPolicy
        app.settings.lifecycle.policy = renewedMode app file ∧
      actionAsked (some (extensionRequest file extendSeconds now))
        app.settings.lifecycle.defaultPolicy app.settings.lifecycle.policy = renewedAction app file ∧
      ttlAsked (some (extensionRequest file extendSeconds now))
        app.settings.lifecycle.defaultPolicy app.settings.lifecycle.policy = renewedTtl app file := by
  unfold renewedMode renewedAction renewedTtl modeAsked actionAsked ttlAsked heard
  split <;> exact ⟨rfl, rfl, rfl⟩

/-- The end that an extension names is read in no mode it can be granted in. -/
theorem extension_unfixed {extendSeconds : Int} {now : Timestamp} {time : Option Timestamp}
    (running : file.lifecycleMode.running = true)
    (named : renewedMode app file = "expires_at") :
    (heard (some (extensionRequest file extendSeconds now))
      app.settings.lifecycle.policy).expiresAt ≠ some time := by
  unfold heard
  split
  · rename_i override
    rw [renewedMode_of_override override running] at named
    exact absurd named (runningModes_ne (LifecycleMode.value_running running)).2.2
  · exact fun same => by cases same

/-- What the policy answers to an extension does not depend on the number of seconds. -/
theorem effective_extension {extendSeconds : Int} {now : Timestamp} {policy : EffectiveLifecycle}
    (loads : file.loadable = true) (running : file.lifecycleMode.running = true) :
    effective app (extensionRequest file extendSeconds now) file.completedAt = .ok policy ↔
      Renewable app file ∧ policy = renewal app file := by
  obtain ⟨sameMode, sameAction, sameTtl⟩ := extension_asked app file extendSeconds now
  have verdict := @computeEffectiveLifecycle_verdict (some (extensionRequest file extendSeconds now))
    app.settings.lifecycle.defaultPolicy app.settings.lifecycle.policy file.completedAt
  unfold effective
  generalize computeEffectiveLifecycle (some (extensionRequest file extendSeconds now))
    app.settings.lifecycle.defaultPolicy app.settings.lifecycle.policy file.completedAt = outcome
    at verdict
  cases verdict with
  | refused disallowed =>
    rw [sameMode, sameAction] at disallowed
    refine iff_of_false (fun granted => by cases granted) fun renews => disallowed ?_
    exact ⟨renews.1.mode, renews.1.action, renews.1.permitted⟩
  | adjudicated mode action permitted branch =>
    rw [sameMode] at mode permitted
    rw [sameAction] at action
    rw [sameMode, sameAction, sameTtl] at branch
    unfold renewal
    cases branch with
    | running named given allowed dated =>
      rw [if_pos named, if_pos named, given]
      refine ⟨fun granted => ⟨?_, (Except.ok.inj granted).symm⟩, fun renews => congrArg _ renews.2.symm⟩
      exact ⟨loads, mode, action, permitted, (runningModes_ne named).2.2,
        fun _ => ⟨_, given, allowed, dated⟩⟩
    | beyond named given allowed undated =>
      refine iff_of_false (fun granted => by cases granted) fun renews => ?_
      obtain ⟨ttl, same, _, dated⟩ := renews.1.ttl named
      rw [given] at same
      cases same
      exact absurd dated (Bool.eq_false_iff.mp undated)
    | outOfRange named given refused =>
      refine iff_of_false (fun granted => by cases granted) fun renews => ?_
      obtain ⟨ttl, same, allowed, _⟩ := renews.1.ttl named
      rw [given] at same
      cases same
      exact refused allowed
    | unlimited named missing =>
      refine iff_of_false (fun granted => by cases granted) fun renews => ?_
      obtain ⟨ttl, same, _⟩ := renews.1.ttl named
      rw [missing] at same
      cases same
    | fixed named given => exact absurd given (extension_unfixed running named)
    | unfixed named =>
      exact iff_of_false (fun granted => by cases granted) fun renews => renews.1.unfixed named
    | endless other unfixed =>
      rw [if_neg other, if_neg other]
      refine ⟨fun granted => ⟨?_, (Except.ok.inj granted).symm⟩, fun renews => congrArg _ renews.2.symm⟩
      exact ⟨loads, mode, action, permitted, unfixed, fun named => absurd named other⟩

section Extensions

variable {world : World Database σ} {identity : Identity} {fileId : Uuid}

/-- Extensions of one file, each by a number of seconds and at a time. -/
def extensions (identity : Identity) (fileId : Uuid) (amounts : List (Int × Timestamp)) : List Timed :=
  amounts.map fun amount => (.extend identity fileId amount.1, amount.2)

theorem Database.findFile_updateFile {db : Database} {tenantId : String}
    {change : FileObject → FileObject}
    (kept : ∀ row, (change row).id = row.id ∧ (change row).tenantId = row.tenantId)
    (found : db.findFile fileId tenantId = some file) :
    (db.updateFile fileId change).findFile fileId tenantId = some (change file) := by
  have named := (Database.findFile_some found).2.1
  unfold Database.findFile Database.updateFile at *
  rw [List.find?_map]
  have same : ((fun row : FileObject => decide (row.id = fileId ∧ row.tenantId = tenantId)) ∘
      fun row => if row.id = fileId then change row else row) =
        fun row => decide (row.id = fileId ∧ row.tenantId = tenantId) := by
    funext row
    simp only [Function.comp_apply]
    split
    · rw [(kept row).1, (kept row).2]
    · rfl
  rw [same, found, Option.map_some, if_pos named]

/-- An extension of a running file is accepted exactly when the policy grants it and the end it
names is a date. -/
theorem serve_extend (found : world.db.findFile fileId identity.tenantId = some file)
    (running : file.lifecycleMode.running = true) {extendSeconds : Int} (positive : 0 < extendSeconds)
    (now : Timestamp) :
    (Accepted app world (.extend identity fileId extendSeconds, now) ↔
        Renewable app file ∧ inCalendar (extendedTo file extendSeconds now) = true) ∧
      (Renewable app file → inCalendar (extendedTo file extendSeconds now) = true →
        (serve app world (.extend identity fileId extendSeconds, now)).2.db.findFile fileId
          identity.tenantId = some (apply (renewal app file) file)) := by
  have open_ : file.lifecycleMode ≠ .permanent ∧ file.lifecycleMode ≠ .expiresAt := by
    constructor <;> intro same <;> rw [same] at running <;> cases running
  have answered : Renewable app file → inCalendar (extendedTo file extendSeconds now) = true →
      ∃ event, serve app world (.extend identity fileId extendSeconds, now) =
        (.ok (.file (apply (renewal app file) file)),
          ⟨(world.db.updateFile fileId (apply (renewal app file))).addEvent event, world.store⟩) := by
    intro renews dated
    have granted : Extends app file extendSeconds now (renewal app file) :=
      ⟨renews.loads, open_.1, open_.2, positive, dated,
        (effective_extension renews.loads running).mpr ⟨renews, rfl⟩⟩
    exact ⟨_, World.execute_wrap_ok (extend_run found granted world.store) Reply.file⟩
  constructor
  · constructor
    · rintro ⟨reply, accepted⟩
      have done := World.execute_committed accepted
      obtain ⟨_, done, _⟩ := Program.bind_pure_eq_ok.mp done
      obtain ⟨row, policy, _, found', ⟨loads, _, _, _, dated, granted⟩, _, _⟩ := extend_ok done
      rw [found] at found'
      cases found'
      exact ⟨((effective_extension loads running).mp granted).1, dated⟩
    · rintro ⟨renews, dated⟩
      obtain ⟨_, served⟩ := answered renews dated
      exact ⟨_, congrArg Prod.fst served⟩
  · intro renews dated
    obtain ⟨_, served⟩ := answered renews dated
    rw [served]
    have kept : ∀ row, (apply (renewal app file) row).id = row.id ∧
        (apply (renewal app file) row).tenantId = row.tenantId := fun _ => ⟨rfl, rfl⟩
    exact Database.findFile_updateFile kept found

theorem renewedTtl_apply (ttl : Int) (given : renewedTtl app file = some ttl)
    {row : FileObject} (same : row.ttlSeconds = some ttl) : renewedTtl app row = some ttl := by
  unfold renewedTtl ttlAsked heard at given ⊢
  split
  · rename_i override
    rw [if_pos override] at given
    change orNumber row.ttlSeconds _ = _
    rw [same]
    change (if ttl = 0 then _ else _) = _
    split
    · rename_i zero
      change orNumber file.ttlSeconds _ = _ at given
      cases stated : file.ttlSeconds with
      | none =>
        rw [stated] at given
        exact given
      | some number =>
        rw [stated] at given
        change (if number = 0 then _ else _) = _ at given
        split at given
        · exact given
        · cases given
          exact absurd zero ‹_›
    · rfl
  · rename_i closed
    rw [if_neg closed] at given
    exact given

private theorem orText_orText (text : Option String) (fallback : String) :
    orText (some (orText text fallback)) fallback = orText text fallback := by
  cases text with
  | none => exact ite_self _
  | some text =>
    change (if orText (some text) fallback = "" then _ else _) = _
    split
    · rename_i empty
      rw [empty]
      change (if text = "" then _ else _) = _ at empty
      split at empty
      · exact empty
      · rename_i given
        exact absurd empty given
    · rfl

private theorem LifecycleMode.running_of_mem {text : String} (named : text ∈ runningModes) :
    (LifecycleMode.ofText text).running = true ∧ (LifecycleMode.ofText text).listed = true := by
  simp only [runningModes, List.mem_cons, List.not_mem_nil, or_false] at named
  rcases named with rfl | rfl | rfl <;> exact ⟨rfl, rfl⟩

/-- What the policy is asked of an extended file is what it granted. -/
theorem renewed_apply (again : RenewableAgain app file) :
    renewedMode app (apply (renewal app file) file) = renewedMode app file ∧
      renewedAction app (apply (renewal app file) file) = renewedAction app file ∧
      renewedTtl app (apply (renewal app file) file) = renewedTtl app file := by
  obtain ⟨ttl, given, _⟩ := again.ttl again.running
  refine ⟨?_, ?_, ?_⟩
  · by_cases override : app.settings.lifecycle.policy.allowClientOverride = true
    · have running := (LifecycleMode.running_of_mem again.running).1
      exact (renewedMode_of_override override running).trans (LifecycleMode.value_ofText _)
    · unfold renewedMode modeAsked heard
      rw [if_neg override, if_neg override]
  · unfold renewedAction actionAsked heard
    split
    · rename_i override
      change orText (some (LifecycleAction.ofText (renewedAction app file)).value) _ = _
      rw [LifecycleAction.value_ofText]
      unfold renewedAction actionAsked heard
      rw [if_pos override]
      exact orText_orText _ _
    · rfl
  · rw [given]
    exact renewedTtl_apply ttl given ((if_pos again.running).trans given)

theorem renewal_apply (again : RenewableAgain app file) :
    (apply (renewal app file) file).lifecycleMode.running = true ∧
      RenewableAgain app (apply (renewal app file) file) ∧
      apply (renewal app (apply (renewal app file) file)) (apply (renewal app file) file) =
        apply (renewal app file) file := by
  obtain ⟨mode, action, ttl⟩ := renewed_apply again
  obtain ⟨running, listed⟩ := LifecycleMode.running_of_mem again.running
  have policy : renewal app (apply (renewal app file) file) = renewal app file := by
    unfold renewal at mode action ttl ⊢
    rw [mode, action, ttl]
    rfl
  refine ⟨running, ?_, by rw [policy]; rfl⟩
  refine { loads := ?_, mode := ?_, action := ?_, permitted := ?_, unfixed := ?_, ttl := ?_,
           running := ?_, listed := ?_ }
  · exact Bool.and_eq_true_iff.mpr ⟨listed, again.listed⟩
  · rw [mode]
    exact again.mode
  · rw [action]
    exact again.action
  · rw [mode]
    exact again.permitted
  · rw [mode]
    exact again.unfixed
  · rw [mode, ttl]
    exact again.ttl
  · rw [mode]
    exact again.running
  · rw [action]
    exact again.listed

/-- The ends that extensions of one file name are dates. -/
def EndsDated (file : FileObject) (amounts : List (Int × Timestamp)) : Prop :=
  ∀ amount ∈ amounts, inCalendar (extendedTo file amount.1 amount.2) = true

/-- Further extensions are accepted as long as they name dates, and change nothing. -/
theorem again_stays {row : FileObject} (running : row.lifecycleMode.running = true)
    (again : RenewableAgain app row) (same : apply (renewal app row) row = row)
    {amounts : List (Int × Timestamp)} (positive : ∀ amount ∈ amounts, 0 < amount.1)
    (found : world.db.findFile fileId identity.tenantId = some row) :
    (EachMeets app (Accepted app) world (extensions identity fileId amounts) ↔
        EndsDated row amounts) ∧
      (EndsDated row amounts →
        (after app world (extensions identity fileId amounts)).db.findFile fileId
          identity.tenantId = some row) := by
  induction amounts generalizing world with
  | nil => exact ⟨iff_of_true trivial (List.forall_mem_nil _), fun _ => found⟩
  | cons amount rest ih =>
    have first : 0 < amount.1 := positive amount List.mem_cons_self
    have later : ∀ other ∈ rest, 0 < other.1 :=
      fun other member => positive other (List.mem_cons_of_mem _ member)
    obtain ⟨accepted, next⟩ := @serve_extend _ app _ _ _ _ found running _ first amount.2
    constructor
    · constructor
      · rintro ⟨now, others⟩
        have dated := (accepted.mp now).2
        have found' := next again.toRenewable dated
        rw [same] at found'
        exact List.forall_mem_cons.mpr ⟨dated, (ih later found').1.mp others⟩
      · intro dated
        obtain ⟨now, others⟩ := List.forall_mem_cons.mp dated
        have found' := next again.toRenewable now
        rw [same] at found'
        exact ⟨accepted.mpr ⟨again.toRenewable, now⟩, (ih later found').1.mpr others⟩
    · intro dated
      obtain ⟨now, others⟩ := List.forall_mem_cons.mp dated
      have found' := next again.toRenewable now
      rw [same] at found'
      exact (ih later found').2 others

/-- A row that is extended a second time was left in a running mode. -/
theorem renewableAgain_of_accepted (renews : Renewable app file) {extendSeconds : Int} {now : Timestamp}
    (found : world.db.findFile fileId identity.tenantId = some (apply (renewal app file) file))
    (accepted : Accepted app world (.extend identity fileId extendSeconds, now)) :
    RenewableAgain app file := by
  obtain ⟨reply, accepted⟩ := accepted
  have done := World.execute_committed accepted
  obtain ⟨_, done, _⟩ := Program.bind_pure_eq_ok.mp done
  obtain ⟨row, policy, _, found', ⟨loads, notPermanent, notFixed, _⟩, _, _⟩ := extend_ok done
  rw [found] at found'
  cases found'
  obtain ⟨mode, action⟩ := Bool.and_eq_true_iff.mp loads
  change (LifecycleMode.ofText (renewedMode app file)).listed = true at mode
  change LifecycleMode.ofText (renewedMode app file) ≠ .permanent at notPermanent
  change LifecycleMode.ofText (renewedMode app file) ≠ .expiresAt at notFixed
  refine { renews with running := LifecycleMode.running_ofText ?_, listed := action }
  cases known : LifecycleMode.ofText (renewedMode app file) with
  | permanent => exact absurd known notPermanent
  | expiresAt => exact absurd known notFixed
  | unlisted text =>
    rw [known] at mode
    cases mode
  | _ => rfl

end Extensions

/-- A file that runs to its end and can be acted upon. -/
structure Extendable (file : FileObject) (ends : Timestamp) : Prop where
  running : file.lifecycleMode.running = true
  ends : file.expiresAt = some ends
  acts : file.lifecycleAction ≠ .none
  free : file.legalHold = false

/-- The row after extensions by a total number of seconds. -/
structure Prolonged (file : FileObject) (ends : Timestamp) (total : Int) (row : FileObject) : Prop where
  expiresAt : row.expiresAt = some (ends + seconds total)
  nextActionAt : row.nextActionAt = some (ends + seconds total)
  mode : row.lifecycleMode = file.lifecycleMode
  action : row.lifecycleAction = file.lifecycleAction

/-- The number of seconds that is in force, counted from the completion of the file, ends at the time
the extensions should end at; without overrides it is that of the default, whose mode and action
then have to be those of the file. -/
def EndsAsExtended (app : AppState σ) (file : FileObject) (ends : Timestamp) (total : Int) : Prop :=
  renewedMode app file = file.lifecycleMode.value ∧
    renewedAction app file = file.lifecycleAction.value ∧
    ∃ ttl, renewedTtl app file = some ttl ∧ file.completedAt + seconds ttl = ends + seconds total

private theorem prolonged_iff {ends : Timestamp} (extendable : Extendable file ends)
    (renews : Renewable app file) (total : Int) :
    Prolonged file ends total (apply (renewal app file) file) ↔
      EndsAsExtended app file ends total := by
  obtain ⟨listedMode, listedAction⟩ := Bool.and_eq_true_iff.mp renews.loads
  constructor
  · intro prolonged
    have mode : LifecycleMode.ofText (renewedMode app file) = file.lifecycleMode := prolonged.mode
    have action : LifecycleAction.ofText (renewedAction app file) = file.lifecycleAction :=
      prolonged.action
    refine ⟨?_, ?_, ?_⟩
    · rw [← mode, LifecycleMode.value_ofText]
    · rw [← action, LifecycleAction.value_ofText]
    · have expires : (if renewedMode app file ∈ runningModes then
          (renewedTtl app file).map (file.completedAt + seconds ·) else none) =
            some (ends + seconds total) := prolonged.expiresAt
      split at expires
      · obtain ⟨ttl, given, same⟩ := Option.map_eq_some_iff.mp expires
        exact ⟨ttl, given, same⟩
      · cases expires
  · rintro ⟨mode, action, ttl, given, same⟩
    have named : renewedMode app file ∈ runningModes :=
      mode ▸ LifecycleMode.value_running extendable.running
    have expires : (renewal app file).expiresAt = some (ends + seconds total) := by
      refine (if_pos named).trans ?_
      rw [given, Option.map_some, same]
    have acting : (renewal app file).action ≠ "none" := by
      change renewedAction app file ≠ "none"
      rw [action]
      intro nothing
      apply extendable.acts
      rw [← LifecycleAction.ofText_value listedAction, nothing]
      rfl
    refine ⟨expires, (if_pos acting).trans expires, ?_, ?_⟩
    · change LifecycleMode.ofText (renewedMode app file) = _
      rw [mode, LifecycleMode.ofText_value listedMode]
    · change LifecycleAction.ofText (renewedAction app file) = _
      rw [action, LifecycleAction.ofText_value listedAction]

/-- Extensions move the end of a file by the seconds they name, together, exactly when the policy
refuses one of them or the end they all compute happens to be that end. -/
theorem extensions_add_iff (app : AppState σ) (world : World Database σ) (identity : Identity)
    (fileId : Uuid) (file : FileObject) (ends : Timestamp)
    (found : world.db.findFile fileId identity.tenantId = some file)
    (extendable : Extendable file ends) (first : Int × Timestamp) (rest : List (Int × Timestamp))
    (positive : ∀ amount ∈ first :: rest, 0 < amount.1) :
    ((EachMeets app (Accepted app) world (extensions identity fileId (first :: rest)) →
        ∃ row, (after app world (extensions identity fileId (first :: rest))).db.findFile fileId
          identity.tenantId = some row ∧
          Prolonged file ends ((first :: rest).map (·.1)).sum row) ∧
      (∀ failure, (serve app world (.extend identity fileId first.1, first.2)).1 = .error failure →
        (serve app world (.extend identity fileId first.1, first.2)).2.db.findFile fileId
          identity.tenantId = some file)) ↔
      (Renewable app file → (rest ≠ [] → RenewableAgain app file) → EndsDated file [first] →
        EndsDated (apply (renewal app file) file) rest →
        EndsAsExtended app file ends ((first :: rest).map (·.1)).sum) := by
  have initial : 0 < first.1 := positive first List.mem_cons_self
  have later : ∀ amount ∈ rest, 0 < amount.1 :=
    fun amount member => positive amount (List.mem_cons_of_mem _ member)
  obtain ⟨accepted, next⟩ := @serve_extend _ app _ _ _ _ found extendable.running _ initial first.2
  -- Whatever is granted, the row after the last extension is the row after the first.
  have last : Renewable app file → (rest ≠ [] → RenewableAgain app file) →
      EndsDated file [first] → EndsDated (apply (renewal app file) file) rest →
      EachMeets app (Accepted app) world (extensions identity fileId (first :: rest)) ∧
        (after app world (extensions identity fileId (first :: rest))).db.findFile fileId
          identity.tenantId = some (apply (renewal app file) file) := by
    intro renews again firstDated restDated
    have dated := firstDated first List.mem_cons_self
    cases rest with
    | nil => exact ⟨⟨accepted.mpr ⟨renews, dated⟩, trivial⟩, next renews dated⟩
    | cons second others =>
      obtain ⟨running, renewable, same⟩ := renewal_apply (again (List.cons_ne_nil _ _))
      obtain ⟨all, found'⟩ := again_stays running renewable same later (next renews dated)
      exact ⟨⟨accepted.mpr ⟨renews, dated⟩, all.mpr restDated⟩, found' restDated⟩
  constructor
  · rintro ⟨moves, _⟩ renews again firstDated restDated
    obtain ⟨all, found'⟩ := last renews again firstDated restDated
    obtain ⟨row, same, prolonged⟩ := moves all
    rw [found'] at same
    cases same
    exact (prolonged_iff extendable renews _).mp prolonged
  · refine fun ends => ⟨fun all => ?_, fun failure refused => ?_⟩
    · obtain ⟨renews, dated⟩ := accepted.mp all.1
      have found' := next renews dated
      have again : rest ≠ [] → RenewableAgain app file := by
        intro more
        cases rest with
        | nil => exact absurd rfl more
        | cons second others => exact renewableAgain_of_accepted renews found' all.2.1
      have firstDated : EndsDated file [first] := List.forall_mem_singleton.mpr dated
      have restDated : EndsDated (apply (renewal app file) file) rest := by
        cases rest with
        | nil => exact List.forall_mem_nil _
        | cons second others =>
          obtain ⟨running, renewable, same⟩ := renewal_apply (again (List.cons_ne_nil _ _))
          exact (again_stays running renewable same later found').1.mp all.2
      exact ⟨_, (last renews again firstDated restDated).2,
        (prolonged_iff extendable renews _).mpr (ends renews again firstDated restDated)⟩
    · have kept : (serve app world (.extend identity fileId first.1, first.2)).2.db = world.db :=
        (World.execute_eq_error.mp (Prod.ext refused rfl)).2
      rw [kept]
      exact found

def keptWorld : World Database LocalState :=
  after smallLocalApp ⟨{}, {}⟩ [(.proxyUpload smallTenant smallUpload, 0)]

private theorem keptFile_found : (keptWorld.db.findFile 0 smallTenant.tenantId).isSome = true := by
  decide +kernel

def keptFile : FileObject := (keptWorld.db.findFile 0 smallTenant.tenantId).get keptFile_found

private theorem keptFile_extendable : Extendable keptFile (seconds 2592000) where
  running := by decide +kernel
  ends := by decide +kernel
  acts := by decide +kernel
  free := by decide +kernel

theorem extensions_add_small :
    ((EachMeets smallLocalApp (Accepted smallLocalApp) keptWorld
        (extensions smallTenant 0 [(60, 1), (90, 2)]) →
        ∃ row, (after smallLocalApp keptWorld
          (extensions smallTenant 0 [(60, 1), (90, 2)])).db.findFile 0 smallTenant.tenantId = some row ∧
          Prolonged keptFile (seconds 2592000) 150 row) ∧
      (∀ failure, (serve smallLocalApp keptWorld (.extend smallTenant 0 60, 1)).1 = .error failure →
        (serve smallLocalApp keptWorld (.extend smallTenant 0 60, 1)).2.db.findFile 0
          smallTenant.tenantId = some keptFile)) ↔
      (Renewable smallLocalApp keptFile → ([((90 : Int), (2 : Timestamp))] ≠ [] →
          RenewableAgain smallLocalApp keptFile) → EndsDated keptFile [(60, 1)] →
        EndsDated (apply (renewal smallLocalApp keptFile) keptFile) [(90, 2)] →
        EndsAsExtended smallLocalApp keptFile (seconds 2592000) 150) :=
  extensions_add_iff smallLocalApp keptWorld smallTenant 0 keptFile (seconds 2592000)
    (Option.some_get keptFile_found).symm keptFile_extendable (60, 1) [(90, 2)] (by decide)

/-- The service extends the file by an hour, and its end stays where it was. -/
theorem extension_moves_nothing :
    let extended := serve smallLocalApp keptWorld (.extend smallTenant 0 3600, 1)
    extended.1.toOption.isSome = true ∧
    (keptWorld.db.fileObjects.map fun file => (file.id, file.lifecycleMode, file.expiresAt)) =
      [(0, .ttl, some (seconds 2592000))] ∧
    (extended.2.db.fileObjects.map fun file => (file.id, file.lifecycleMode, file.expiresAt)) =
      [(0, .ttl, some (seconds 2592000))] := by
  decide +kernel

end PyUploadX

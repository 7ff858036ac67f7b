import ControlPlaneKit.Interaction.Runs
import Mathlib.Data.Finmap

/-!
# Compensation of an aborted scenario

An aborted scenario is first cleaned up by the workflow itself. Where the absence of what it owned
cannot be verified afterwards, `compensateAbort` calls a compensator for each emergency resource
and verifies once more. Every call to the outside either returns or raises, so its answer is a
`Bool`; a call that raises is recorded as a failed stage and the next stage runs all the same.

The compensators report which stages failed, and nothing else: the absence of reports is the only
evidence of success. `compensateAbort_losesNothing` says that it is sound evidence.
-/

namespace ControlPlaneKit

namespace SourceLive

open Interaction Program

/-! ### Resources -/

/-- What an aborted scenario owns at a provider. -/
structure ExactOwnedIngressResource where
  providerKind : String
  ingressId : String
  epoch : ℕ
  /-- A mapping: equality disregards the order of its entries. -/
  publicProviderCoordinates : Finmap fun _ : String => String
  sourceRunId : String
  secretReference : String
  providerVersionId : String
  providerVersionNumber : ℕ
  epoch_pos : 0 < epoch
  providerVersionNumber_pos : 0 < providerVersionNumber
  coordinates_ne : publicProviderCoordinates ≠ ∅
deriving DecidableEq

/-- A coordinate by its key; `none` where the lookup raises. -/
def ExactOwnedIngressResource.coordinate (resource : ExactOwnedIngressResource) (key : String) :
    Option String :=
  resource.publicProviderCoordinates.lookup key

/-- The container a failed run left behind. -/
structure ExactFailedDockerNodeEffect where
  workspaceId : String
  runId : String
  planId : String
  desiredGraphId : String
  activityId : String
  runtimeId : String
  nodeId : String
  containerName : String
deriving DecidableEq

structure AbortCompensationReport where
  authoritative : Bool
  emergencyAttempted : Bool
  resourceCount : ℕ
deriving DecidableEq

structure SourceLiveAbortError where
  message : String
deriving DecidableEq

/-! ### Calls to the outside -/

/-- The calls of an abort; each is answered by whether it returned. -/
inductive Call where
  | authoritativeCleanup
  | verifyAuthoritativeAbsence
  | verifyEmergencyAbsence
  | providerRevokeExactVersion (workspaceId reference versionId : String) (versionNumber : ℕ)
      (correlationId : String)
  | stopRemoveExactFailedConnector (effect : ExactFailedDockerNodeEffect)
  /-- The construction of the Cloudflare client for a zone and a hostname. -/
  | cloudflareClient (zoneId allowedHostnamePattern : String)
  | deleteDnsRecord (dnsRecordId : String)
  | deleteTunnelConnections (tunnelId : String)
  | deleteTunnel (tunnelId : String)
deriving DecidableEq

/-- Programs over these calls. -/
abbrev Act (α : Type) :=
  Program Call (fun _ => Bool) SourceLiveAbortError α

/-- A call and whether it returned. -/
abbrev Called :=
  Event Call fun _ => Bool

/-- A call under `try: … except Exception`. -/
def attempt (call : Call) : Act Bool :=
  Program.request call

/-- A call that is recorded under `name` when it raises. -/
def stage (failed : List String) (name : String) (call : Call) : Act (List String) := do
  if ← attempt call then return failed else return failed ++ [name]

/-- A stage that looks up its argument first. -/
def coordinateStage (failed : List String) (name : String) (coordinate : Option String)
    (call : String → Call) : Act (List String) :=
  match coordinate with
  | none => return failed ++ [name]
  | some value => stage failed name (call value)

/-- The removal of the connector a failed run left behind. -/
def connectorStage (failed : List String) (failedConnectorEffect :
    Option ExactFailedDockerNodeEffect) (connectorRequired : Bool) : Act (List String) :=
  match failedConnectorEffect with
  | none => return if connectorRequired then failed ++ ["connector-evidence"] else failed
  | some effect => stage failed "connector" (.stopRemoveExactFailedConnector effect)

/-- The deletions at Cloudflare, given that the client was built. -/
def deletions (failed : List String) (resource : ExactOwnedIngressResource) :
    Act (List String) := do
  let failed ← coordinateStage failed "dns" (resource.coordinate "dns_record_id") .deleteDnsRecord
  let failed ← coordinateStage failed "connections" (resource.coordinate "tunnel_id")
    .deleteTunnelConnections
  coordinateStage failed "tunnel" (resource.coordinate "tunnel_id") .deleteTunnel

/-- The construction of the client; `false` where it raises. -/
def cloudflareClient (resource : ExactOwnedIngressResource) : Act Bool :=
  match resource.coordinate "zone_id", resource.coordinate "hostname" with
  | some zoneId, some hostname => attempt (.cloudflareClient zoneId hostname)
  | _, _ => return false

/-- The correlation of a revocation. -/
def correlationId (resource : ExactOwnedIngressResource) : String :=
  s!"source-live-abort:{resource.ingressId}:{resource.epoch}"

/-- The stages of a Cloudflare resource that failed. -/
def emergencyCompensateCloudflare (resource : ExactOwnedIngressResource) (workspaceId : String)
    (failedConnectorEffect : Option ExactFailedDockerNodeEffect) (connectorRequired : Bool) :
    Act (List String) := do
  let failed ← stage [] "custody" (.providerRevokeExactVersion workspaceId resource.secretReference
    resource.providerVersionId resource.providerVersionNumber (correlationId resource))
  let failed ← connectorStage failed failedConnectorEffect connectorRequired
  if ← cloudflareClient resource then deletions failed resource
  else return failed ++ ["dns", "connections", "tunnel"]

/-! ### The compensation -/

/-- Reports which stages of a resource failed. -/
abbrev EmergencyCompensator :=
  ExactOwnedIngressResource → Act (List String)

/-- The loop over the emergency resources. -/
def compensateAll (emergencyCompensators : String → Option EmergencyCompensator) :
    List ExactOwnedIngressResource → List String → Act (List String)
  | [], failed => return failed
  | resource :: rest, failed =>
    match emergencyCompensators resource.providerKind with
    | none => compensateAll emergencyCompensators rest
        (failed ++ ["provider:" ++ resource.providerKind])
    | some compensator => do
      let stages ← compensator resource
      compensateAll emergencyCompensators rest
        (failed ++ stages.map fun stage => resource.providerKind ++ ":" ++ stage)

/-- The error of an emergency resource that is not owned. -/
def incongruent : SourceLiveAbortError :=
  ⟨"emergency cleanup evidence is incongruent"⟩

/-- The error that names what failed. -/
def uncertain (categories : List String) : SourceLiveAbortError :=
  ⟨"source-live exact cleanup is uncertain: " ++ ",".intercalate categories⟩

/-- How the emergency compensation ends, given what failed. -/
def verdict (failed : List String) (resources emergencyResources : List ExactOwnedIngressResource) :
    Except SourceLiveAbortError AbortCompensationReport :=
  if failed ≠ [] ∨ emergencyResources = [] then
    .error (uncertain (if failed = [] then ["unproven-emergency-authority"] else failed))
  else .ok ⟨false, true, resources.length⟩

/-- An `Except` as the end of a program. -/
def finish {α : Type} : Except SourceLiveAbortError α → Act α
  | .ok a => .pure a
  | .error e => .raise e

/-- `compensate_abort`. -/
def compensateAbort (emergencyCompensators : String → Option EmergencyCompensator)
    (resources emergencyResources : List ExactOwnedIngressResource) :
    Act AbortCompensationReport := do
  if emergencyResources.any (fun resource => resource ∉ resources) then .raise incongruent
  else
    let _ ← attempt .authoritativeCleanup
    if ← attempt .verifyAuthoritativeAbsence then return ⟨true, false, resources.length⟩
    let failed ← compensateAll emergencyCompensators emergencyResources []
    let failed ← stage failed "absence-verification" .verifyEmergencyAbsence
    finish (verdict failed resources emergencyResources)

/-- What the abort controller knows when it starts the compensation. -/
structure Controller where
  workspaceId : String
  failedConnectorEffects : String → Option ExactFailedDockerNodeEffect
  activeResources : List ExactOwnedIngressResource

/-- The compensators of the abort controller. -/
def Controller.emergencyCompensators (controller : Controller) (providerKind : String) :
    Option EmergencyCompensator :=
  if providerKind = "cloudflare" then
    some fun resource => emergencyCompensateCloudflare resource controller.workspaceId
      (controller.failedConnectorEffects resource.sourceRunId)
      (resource ∈ controller.activeResources)
  else none

/-! ### The runs of one compensator -/

/-- Which calls of a Cloudflare compensation returned; an answer that was not asked for is
ignored. -/
structure StageAnswers where
  custody : Bool
  connector : Bool
  client : Bool
  dns : Bool
  connections : Bool
  tunnel : Bool

/-- The name of a stage unless it succeeded. -/
def missed (succeeded : Bool) (name : String) : List String :=
  if succeeded then [] else [name]

/-- The call of a stage whose argument is known. -/
def called {α : Type} (argument : Option α) (call : α → Call) (answer : Bool) : List Called :=
  (argument.map fun value => ⟨call value, answer⟩).toList

/-- What the construction of the client needs. -/
def clientArguments (resource : ExactOwnedIngressResource) : Option (String × String) :=
  match resource.coordinate "zone_id", resource.coordinate "hostname" with
  | some zoneId, some hostname => some (zoneId, hostname)
  | _, _ => none

/-- Whether the client was built. -/
def clientBuilt (resource : ExactOwnedIngressResource) (answers : StageAnswers) : Bool :=
  (clientArguments resource).isSome && answers.client

/-- The deletion calls at Cloudflare, in order. -/
def deletionCalls (resource : ExactOwnedIngressResource) (answers : StageAnswers) : List Called :=
  called (resource.coordinate "dns_record_id") .deleteDnsRecord answers.dns ++
    called (resource.coordinate "tunnel_id") .deleteTunnelConnections answers.connections ++
    called (resource.coordinate "tunnel_id") .deleteTunnel answers.tunnel

/-- The calls of a Cloudflare compensation: revocation, connector, client and, with a client,
the deletions. No call depends on an earlier one but the deletions on the client. -/
def cloudflareCalls (controller : Controller) (resource : ExactOwnedIngressResource)
    (answers : StageAnswers) : List Called :=
  ⟨.providerRevokeExactVersion controller.workspaceId resource.secretReference
      resource.providerVersionId resource.providerVersionNumber (correlationId resource),
    answers.custody⟩ ::
    called (controller.failedConnectorEffects resource.sourceRunId)
      .stopRemoveExactFailedConnector answers.connector ++
    called (clientArguments resource) (fun arguments => .cloudflareClient arguments.1 arguments.2)
      answers.client ++
    if clientBuilt resource answers then deletionCalls resource answers else []

/-- The failed stages of the connector. -/
def connectorFailures (failedConnectorEffect : Option ExactFailedDockerNodeEffect)
    (connectorRequired answer : Bool) : List String :=
  match failedConnectorEffect with
  | none => missed (!connectorRequired) "connector-evidence"
  | some _ => missed answer "connector"

/-- The failed stages of a Cloudflare compensation: each stage is listed unless its call was made
and returned. -/
def cloudflareFailures (controller : Controller) (resource : ExactOwnedIngressResource)
    (answers : StageAnswers) : List String :=
  missed answers.custody "custody" ++
    connectorFailures (controller.failedConnectorEffects resource.sourceRunId)
      (resource ∈ controller.activeResources) answers.connector ++
    missed (clientBuilt resource answers && (resource.coordinate "dns_record_id").isSome &&
      answers.dns) "dns" ++
    missed (clientBuilt resource answers && (resource.coordinate "tunnel_id").isSome &&
      answers.connections) "connections" ++
    missed (clientBuilt resource answers && (resource.coordinate "tunnel_id").isSome &&
      answers.tunnel) "tunnel"

theorem attempt_enumerates (call : Call) :
    (attempt call).Enumerates (fun answer : Bool => [⟨call, answer⟩]) fun answer => .ok answer :=
  Enumerates.request call

/-- A stage makes its call and appends its name when the call raised. -/
theorem stage_enumerates (failed : List String) (name : String) (call : Call) :
    (stage failed name call).Enumerates (fun answer : Bool => [⟨call, answer⟩])
      fun answer => .ok (failed ++ missed answer name) := by
  have hbind := (attempt_enumerates call).bind
    (f := fun answer => (if answer then return failed else return failed ++ [name]))
    (s := fun (_ : Bool) (_ : Unit) => [])
    (y := fun answer _ => .ok (failed ++ missed answer name))
    (by
      intro answer
      cases answer
      · exact Enumerates.pure _
      · simpa [missed] using Enumerates.pure failed)
  refine hbind.reindex (fun answer => (answer, ())) ?_ (fun _ => rfl) fun _ => rfl
  rintro ⟨answer, -⟩
  exact ⟨answer, rfl⟩

theorem coordinateStage_enumerates (failed : List String) (name : String)
    (coordinate : Option String) (call : String → Call) :
    (coordinateStage failed name coordinate call).Enumerates
      (fun answer : Bool => called coordinate call answer)
      fun answer => .ok (failed ++ missed (coordinate.isSome && answer) name) := by
  cases coordinate with
  | none => exact Enumerates.pure _
  | some value => exact stage_enumerates failed name (call value)

theorem connectorStage_enumerates (failed : List String)
    (failedConnectorEffect : Option ExactFailedDockerNodeEffect) (connectorRequired : Bool) :
    (connectorStage failed failedConnectorEffect connectorRequired).Enumerates
      (fun answer : Bool =>
        called failedConnectorEffect .stopRemoveExactFailedConnector answer)
      fun answer => .ok (failed ++
        connectorFailures failedConnectorEffect connectorRequired answer) := by
  cases failedConnectorEffect with
  | none =>
    cases connectorRequired
    · simpa [connectorStage, connectorFailures, missed, called] using Enumerates.pure failed
    · exact Enumerates.pure _
  | some effect => exact stage_enumerates failed "connector" _

theorem cloudflareClient_enumerates (resource : ExactOwnedIngressResource) :
    (cloudflareClient resource).Enumerates
      (fun answer : Bool => called (clientArguments resource)
        (fun arguments => .cloudflareClient arguments.1 arguments.2) answer)
      fun answer => .ok ((clientArguments resource).isSome && answer) := by
  unfold cloudflareClient clientArguments
  split
  · exact attempt_enumerates _
  · exact Enumerates.pure _

/-- The deletions are attempted one after the other, whatever the earlier ones answered. -/
theorem deletions_enumerates (failed : List String) (resource : ExactOwnedIngressResource) :
    (deletions failed resource).Enumerates
      (fun answers : Bool × Bool × Bool =>
        called (resource.coordinate "dns_record_id") .deleteDnsRecord answers.1 ++
          (called (resource.coordinate "tunnel_id") .deleteTunnelConnections answers.2.1 ++
            called (resource.coordinate "tunnel_id") .deleteTunnel answers.2.2))
      fun answers => .ok (failed ++
        missed ((resource.coordinate "dns_record_id").isSome && answers.1) "dns" ++
        missed ((resource.coordinate "tunnel_id").isSome && answers.2.1) "connections" ++
        missed ((resource.coordinate "tunnel_id").isSome && answers.2.2) "tunnel") := by
  have hconnections (failed : List String) := (coordinateStage_enumerates failed "connections"
    (resource.coordinate "tunnel_id") .deleteTunnelConnections).bind
    (f := fun failed => coordinateStage failed "tunnel" (resource.coordinate "tunnel_id")
      .deleteTunnel)
    fun _ => coordinateStage_enumerates _ "tunnel" (resource.coordinate "tunnel_id") .deleteTunnel
  have hdns := (coordinateStage_enumerates failed "dns" (resource.coordinate "dns_record_id")
    .deleteDnsRecord).bind
    (f := fun failed => do
      let failed ← coordinateStage failed "connections" (resource.coordinate "tunnel_id")
        .deleteTunnelConnections
      coordinateStage failed "tunnel" (resource.coordinate "tunnel_id") .deleteTunnel)
    fun _ => hconnections _
  exact hdns

/-- Without a client the three deletions are reported. -/
theorem clientStages_enumerates (failed : List String) (resource : ExactOwnedIngressResource)
    (built : Bool) :
    (if built then deletions failed resource
      else return failed ++ ["dns", "connections", "tunnel"] : Act (List String)).Enumerates
      (fun answers : Bool × Bool × Bool => if built then
        called (resource.coordinate "dns_record_id") .deleteDnsRecord answers.1 ++
          (called (resource.coordinate "tunnel_id") .deleteTunnelConnections answers.2.1 ++
            called (resource.coordinate "tunnel_id") .deleteTunnel answers.2.2) else [])
      fun answers => .ok (failed ++
        missed (built && (resource.coordinate "dns_record_id").isSome && answers.1) "dns" ++
        missed (built && (resource.coordinate "tunnel_id").isSome && answers.2.1) "connections" ++
        missed (built && (resource.coordinate "tunnel_id").isSome && answers.2.2) "tunnel") := by
  cases built with
  | false => simpa [missed] using Enumerates.pure (failed ++ ["dns", "connections", "tunnel"])
  | true => simpa using deletions_enumerates failed resource

/-- A Cloudflare compensation makes the calls of `cloudflareCalls` and reports the failures of
`cloudflareFailures`, whatever the answers. -/
theorem emergencyCompensateCloudflare_enumerates (controller : Controller)
    (resource : ExactOwnedIngressResource) :
    (emergencyCompensateCloudflare resource controller.workspaceId
      (controller.failedConnectorEffects resource.sourceRunId)
      (resource ∈ controller.activeResources)).Enumerates
      (cloudflareCalls controller resource)
      fun answers => .ok (cloudflareFailures controller resource answers) := by
  have hclient (failed : List String) := (cloudflareClient_enumerates resource).bind
    (f := fun built => if built then deletions failed resource
      else return failed ++ ["dns", "connections", "tunnel"])
    fun answer => clientStages_enumerates failed resource
      ((clientArguments resource).isSome && answer)
  have hconnector (failed : List String) := (connectorStage_enumerates failed
    (controller.failedConnectorEffects resource.sourceRunId)
    (resource ∈ controller.activeResources)).bind
    (f := fun failed => do
      if ← cloudflareClient resource then deletions failed resource
      else return failed ++ ["dns", "connections", "tunnel"])
    fun _ => hclient _
  have hstages := (stage_enumerates [] "custody" (.providerRevokeExactVersion
    controller.workspaceId resource.secretReference resource.providerVersionId
    resource.providerVersionNumber (correlationId resource))).bind
    (f := fun failed => do
      let failed ← connectorStage failed (controller.failedConnectorEffects resource.sourceRunId)
        (resource ∈ controller.activeResources)
      if ← cloudflareClient resource then deletions failed resource
      else return failed ++ ["dns", "connections", "tunnel"])
    fun _ => hconnector _
  refine hstages.reindex (fun answers => (answers.custody, answers.connector, answers.client,
    answers.dns, answers.connections, answers.tunnel)) ?_ ?_ ?_
  · rintro ⟨custody, connector, client, dns, connections, tunnel⟩
    exact ⟨⟨custody, connector, client, dns, connections, tunnel⟩, rfl⟩
  · intro answers
    simp [cloudflareCalls, clientBuilt, deletionCalls]
  · intro answers
    simp [cloudflareFailures, clientBuilt, Bool.and_assoc]

/-- Every stage of a compensation had what it needs, and every call it made returned. -/
structure Succeeded (controller : Controller) (resource : ExactOwnedIngressResource)
    (answers : StageAnswers) : Prop where
  returned : ∀ call ∈ cloudflareCalls controller resource answers, call.answer = true
  connector : resource ∈ controller.activeResources →
    (controller.failedConnectorEffects resource.sourceRunId).isSome
  client : (clientArguments resource).isSome
  dns : (resource.coordinate "dns_record_id").isSome
  tunnel : (resource.coordinate "tunnel_id").isSome

theorem missed_eq_nil {succeeded : Bool} {name : String} :
    missed succeeded name = [] ↔ succeeded = true := by
  cases succeeded <;> simp [missed]

theorem connectorFailures_eq_nil {effect : Option ExactFailedDockerNodeEffect}
    {required answer : Bool} : connectorFailures effect required answer = [] ↔
      (required = true → effect.isSome) ∧ (effect.isSome → answer = true) := by
  cases effect <;> simp [connectorFailures, missed_eq_nil]

theorem called_returned {α : Type} {argument : Option α} {call : α → Call} {answer : Bool} :
    (∀ e ∈ called argument call answer, e.answer = true) ↔
      (argument.isSome → answer = true) := by
  cases argument <;> simp [called]

/-- A compensation reports nothing exactly when every stage succeeded. -/
theorem cloudflareFailures_eq_nil {controller : Controller}
    {resource : ExactOwnedIngressResource} {answers : StageAnswers} :
    cloudflareFailures controller resource answers = [] ↔
      Succeeded controller resource answers := by
  have hreported : cloudflareFailures controller resource answers = [] ↔
      answers.custody = true ∧
      ((resource ∈ controller.activeResources →
        (controller.failedConnectorEffects resource.sourceRunId).isSome) ∧
      ((controller.failedConnectorEffects resource.sourceRunId).isSome →
        answers.connector = true)) ∧
      (clientBuilt resource answers = true ∧ (resource.coordinate "dns_record_id").isSome ∧
        answers.dns = true) ∧
      ((resource.coordinate "tunnel_id").isSome ∧ answers.connections = true) ∧
      answers.tunnel = true := by
    simp only [cloudflareFailures, List.append_eq_nil_iff, missed_eq_nil,
      connectorFailures_eq_nil, Bool.and_eq_true, decide_eq_true_eq]
    tauto
  rw [hreported]
  constructor
  · rintro ⟨hcustody, ⟨hevidence, hconnector⟩, ⟨hbuilt, hdns, hdeleted⟩, ⟨htunnel, hclosed⟩,
      hremoved⟩
    have hclient := hbuilt
    simp only [clientBuilt, Bool.and_eq_true] at hclient
    refine ⟨?_, hevidence, hclient.1, hdns, htunnel⟩
    simp only [cloudflareCalls, if_pos hbuilt, deletionCalls, List.cons_append,
      List.forall_mem_cons, List.forall_mem_append, called_returned]
    exact ⟨hcustody, ⟨hconnector, fun _ => hclient.2⟩, ⟨fun _ => hdeleted, fun _ => hclosed⟩,
      fun _ => hremoved⟩
  · rintro ⟨hreturned, hevidence, hclient, hdns, htunnel⟩
    simp only [cloudflareCalls, List.cons_append, List.forall_mem_cons, List.forall_mem_append,
      called_returned] at hreturned
    obtain ⟨hcustody, ⟨hconnector, hanswer⟩, hdeletions⟩ := hreturned
    have hbuilt : clientBuilt resource answers = true := by
      simp [clientBuilt, hclient, hanswer hclient]
    simp only [if_pos hbuilt, deletionCalls, List.forall_mem_append, called_returned]
      at hdeletions
    exact ⟨hcustody, ⟨hevidence, hconnector⟩, ⟨hbuilt, hdns, hdeletions.1.1 hdns⟩,
      ⟨htunnel, hdeletions.1.2 htunnel⟩, hdeletions.2 htunnel⟩

/-! ### The runs of all compensators -/

/-- The calls of the emergency compensation: one block for each resource, in order. -/
def emergencyCalls (controller : Controller) (emergencyResources : List ExactOwnedIngressResource)
    (answers : List StageAnswers) : List Called :=
  (emergencyResources.zip answers).flatMap fun block => cloudflareCalls controller block.1 block.2

/-- What the emergency compensation reports. -/
def emergencyFailures (controller : Controller)
    (emergencyResources : List ExactOwnedIngressResource) (answers : List StageAnswers) :
    List String :=
  (emergencyResources.zip answers).flatMap fun block =>
    (cloudflareFailures controller block.1 block.2).map fun stage =>
      block.1.providerKind ++ ":" ++ stage

/-- Nothing is reported exactly when every stage of every resource succeeded. -/
theorem emergencyFailures_eq_nil {controller : Controller}
    {emergencyResources : List ExactOwnedIngressResource} {answers : List StageAnswers} :
    emergencyFailures controller emergencyResources answers = [] ↔
      ∀ block ∈ emergencyResources.zip answers, Succeeded controller block.1 block.2 := by
  simp only [emergencyFailures, List.flatMap_eq_nil_iff, List.map_eq_nil_iff,
    cloudflareFailures_eq_nil]

/-- The answers to the calls for `n` resources. -/
abbrev AnswersFor (n : ℕ) :=
  { answers : List StageAnswers // answers.length = n }

/-- The answers for one more resource. -/
def AnswersFor.split {n : ℕ} (answers : AnswersFor (n + 1)) : StageAnswers × AnswersFor n :=
  (answers.1.head (List.ne_nil_of_length_eq_add_one answers.2),
    ⟨answers.1.tail, by simp [answers.2]⟩)

theorem AnswersFor.split_surjective {n : ℕ} :
    (AnswersFor.split : AnswersFor (n + 1) → StageAnswers × AnswersFor n).Surjective :=
  fun ⟨a, rest⟩ => ⟨⟨a :: rest.1, by simp [rest.2]⟩, rfl⟩

/-- The loop compensates every resource once and in order, and appends what is reported. -/
theorem compensateAll_enumerates (controller : Controller)
    (emergencyResources : List ExactOwnedIngressResource)
    (hkind : ∀ resource ∈ emergencyResources, resource.providerKind = "cloudflare")
    (failed : List String) :
    (compensateAll controller.emergencyCompensators emergencyResources failed).Enumerates
      (fun answers : AnswersFor emergencyResources.length =>
        emergencyCalls controller emergencyResources answers.1)
      fun answers => .ok (failed ++ emergencyFailures controller emergencyResources answers.1) := by
  induction emergencyResources generalizing failed with
  | nil =>
    have : Nonempty (AnswersFor ([] : List ExactOwnedIngressResource).length) := ⟨⟨[], rfl⟩⟩
    simpa [compensateAll, emergencyCalls, emergencyFailures] using Enumerates.pure failed
  | cons resource rest ih =>
    have hcompensator : controller.emergencyCompensators resource.providerKind =
        some fun resource => emergencyCompensateCloudflare resource controller.workspaceId
          (controller.failedConnectorEffects resource.sourceRunId)
          (resource ∈ controller.activeResources) :=
      if_pos (hkind resource List.mem_cons_self)
    have hrest (failed : List String) :=
      ih (fun other hmem => hkind other (List.mem_cons_of_mem _ hmem)) failed
    have hblock := (emergencyCompensateCloudflare_enumerates controller resource).bind
      (f := fun stages => compensateAll controller.emergencyCompensators rest
        (failed ++ stages.map fun stage => resource.providerKind ++ ":" ++ stage))
      fun _ => hrest _
    rw [compensateAll, hcompensator]
    -- the first answer is for this resource, the others are for the rest
    refine hblock.reindex AnswersFor.split AnswersFor.split_surjective ?_ ?_
    · rintro ⟨answers, hanswers⟩
      obtain ⟨a, answers, rfl⟩ := List.exists_cons_of_length_eq_add_one hanswers
      simp [emergencyCalls, AnswersFor.split]
    · rintro ⟨answers, hanswers⟩
      obtain ⟨a, answers, rfl⟩ := List.exists_cons_of_length_eq_add_one hanswers
      simp [emergencyFailures, AnswersFor.split]

theorem finish_enumerates {α : Type} (r : Except SourceLiveAbortError α) :
    (finish r).Enumerates (fun _ : Unit => []) fun _ => r := by
  cases r with
  | ok a => exact Enumerates.pure a
  | error e => exact Enumerates.raise e

/-! ### The whole compensation -/

/-- What an emergency compensation reports in the end. -/
def reported (controller : Controller) (emergencyResources : List ExactOwnedIngressResource)
    (answers : List StageAnswers) (verified : Bool) : List String :=
  emergencyFailures controller emergencyResources answers ++
    missed verified "absence-verification"

/-- The part of the compensation that follows a failed verification. -/
theorem emergency_enumerates (controller : Controller)
    (resources emergencyResources : List ExactOwnedIngressResource)
    (hkind : ∀ resource ∈ emergencyResources, resource.providerKind = "cloudflare") :
    (do
      let failed ← compensateAll controller.emergencyCompensators emergencyResources []
      let failed ← stage failed "absence-verification" .verifyEmergencyAbsence
      finish (verdict failed resources emergencyResources) :
        Act AbortCompensationReport).Enumerates
      (fun answers : AnswersFor emergencyResources.length × Bool =>
        emergencyCalls controller emergencyResources answers.1.1 ++
          [⟨.verifyEmergencyAbsence, answers.2⟩])
      fun answers => verdict (reported controller emergencyResources answers.1.1 answers.2)
        resources emergencyResources := by
  have hverify (failed : List String) :=
    (stage_enumerates failed "absence-verification" .verifyEmergencyAbsence).bind
      (f := fun failed => finish (verdict failed resources emergencyResources))
      fun _ => finish_enumerates _
  have hall := (compensateAll_enumerates controller emergencyResources hkind []).bind
    (f := fun failed => do
      let failed ← stage failed "absence-verification" .verifyEmergencyAbsence
      finish (verdict failed resources emergencyResources))
    fun _ => hverify _
  refine hall.reindex (fun answers => (answers.1, answers.2, ())) ?_ ?_ ?_
  · rintro ⟨answers, verified, -⟩
    exact ⟨(answers, verified), rfl⟩
  · exact fun _ => by simp
  · exact fun _ => rfl

/-- The error names what was reported; without emergency resources nothing was proved. -/
theorem verdict_ok_iff {controller : Controller}
    {resources emergencyResources : List ExactOwnedIngressResource} {answers : List StageAnswers}
    {verified : Bool} {report : AbortCompensationReport} :
    verdict (reported controller emergencyResources answers verified) resources
        emergencyResources = .ok report ↔
      (emergencyResources ≠ [] ∧
        (∀ block ∈ emergencyResources.zip answers, Succeeded controller block.1 block.2) ∧
        verified = true) ∧ report = ⟨false, true, resources.length⟩ := by
  have hnothing : reported controller emergencyResources answers verified = [] ↔
      (∀ block ∈ emergencyResources.zip answers, Succeeded controller block.1 block.2) ∧
        verified = true := by
    rw [reported, List.append_eq_nil_iff, emergencyFailures_eq_nil, missed_eq_nil]
  unfold verdict
  split
  next hfailed =>
    have hnot : ¬ (emergencyResources ≠ [] ∧ reported controller emergencyResources answers
        verified = []) := fun h => hfailed.elim (fun hne => hne h.2) h.1
    rw [hnothing] at hnot
    constructor
    · intro h
      cases h
    · exact fun h => absurd h.1 hnot
  next hfailed =>
    push Not at hfailed
    rw [hnothing] at hfailed
    constructor
    · intro h
      cases h
      exact ⟨⟨hfailed.2, hfailed.1⟩, rfl⟩
    · rintro ⟨-, rfl⟩
      rfl

theorem verdict_error {failed : List String}
    {resources emergencyResources : List ExactOwnedIngressResource} {error : SourceLiveAbortError}
    (h : verdict failed resources emergencyResources = .error error) :
    error = uncertain (if failed = [] then ["unproven-emergency-authority"] else failed) := by
  unfold verdict at h
  split at h
  · exact (Except.error.inj h).symm
  · cases h

/-- What a run of the compensation may be. -/
structure LosesNothing (controller : Controller)
    (resources emergencyResources : List ExactOwnedIngressResource) (calls : List Called)
    (outcome : Except SourceLiveAbortError AbortCompensationReport) : Prop where
  /-- An emergency resource that is not owned stops the compensation before any call. -/
  refused : (∃ resource ∈ emergencyResources, resource ∉ resources) →
    calls = [] ∧ outcome = .error incongruent
  /-- The report is authoritative exactly when the verification returned. -/
  authoritative : (∀ resource ∈ emergencyResources, resource ∈ resources) →
    ((∃ report, outcome = .ok report ∧ report.authoritative = true) ↔
      ⟨.verifyAuthoritativeAbsence, true⟩ ∈ calls)
  /-- Then no compensator runs. -/
  uncompensated : ⟨.verifyAuthoritativeAbsence, true⟩ ∈ calls → ∃ cleanedUp,
    calls = [⟨.authoritativeCleanup, cleanedUp⟩, ⟨.verifyAuthoritativeAbsence, true⟩]
  /-- Otherwise each emergency resource is compensated once and in order, and the absence is
  verified; the report is given exactly when all of that succeeded for at least one resource. -/
  compensated : (∀ resource ∈ emergencyResources, resource ∈ resources) →
    ⟨.verifyAuthoritativeAbsence, true⟩ ∉ calls →
    ∃ (cleanedUp : Bool) (answers : List StageAnswers) (verified : Bool),
      answers.length = emergencyResources.length ∧
      calls = [⟨.authoritativeCleanup, cleanedUp⟩, ⟨.verifyAuthoritativeAbsence, false⟩] ++
        emergencyCalls controller emergencyResources answers ++
        [⟨.verifyEmergencyAbsence, verified⟩] ∧
      (∀ report, outcome = .ok report ↔
        (emergencyResources ≠ [] ∧
          (∀ block ∈ emergencyResources.zip answers, Succeeded controller block.1 block.2) ∧
          verified = true) ∧ report = ⟨false, true, resources.length⟩) ∧
      ∀ error, outcome = .error error → error = uncertain
        (if reported controller emergencyResources answers verified = [] then
          ["unproven-emergency-authority"]
        else reported controller emergencyResources answers verified)

/-- The calls of the emergency compensation do not verify the authoritative cleanup. -/
theorem verify_notMem_emergencyCalls (controller : Controller)
    (emergencyResources : List ExactOwnedIngressResource) (answers : List StageAnswers) :
    (⟨.verifyAuthoritativeAbsence, true⟩ : Called) ∉
      emergencyCalls controller emergencyResources answers := by
  intro hmem
  obtain ⟨block, -, hmem⟩ := List.mem_flatMap.mp hmem
  have hcalled {α : Type} {argument : Option α} {call : α → Call} {answer : Bool}
      (hcall : ∀ value, call value ≠ .verifyAuthoritativeAbsence) :
      (⟨.verifyAuthoritativeAbsence, true⟩ : Called) ∉ called argument call answer := by
    cases argument with
    | none => simp [called]
    | some value => simpa [called] using fun h => absurd h.symm (hcall value)
  simp only [cloudflareCalls, List.cons_append, List.mem_cons, List.mem_append] at hmem
  rcases hmem with hmem | (hmem | hmem) | hmem
  · cases hmem
  · exact hcalled (fun _ h => by cases h) hmem
  · exact hcalled (fun _ h => by cases h) hmem
  · split at hmem
    · simp only [deletionCalls, List.mem_append] at hmem
      rcases hmem with (hmem | hmem) | hmem <;> exact hcalled (fun _ h => by cases h) hmem
    · cases hmem

/-- Abort compensation loses no failure: whatever the calls to the outside answer. -/
theorem compensateAbort_losesNothing (controller : Controller)
    (resources emergencyResources : List ExactOwnedIngressResource)
    (hkind : ∀ resource ∈ emergencyResources, resource.providerKind = "cloudflare")
    {calls : List Called} {outcome : Except SourceLiveAbortError AbortCompensationReport}
    (hrun : (compensateAbort controller.emergencyCompensators resources emergencyResources).Runs
      calls outcome) : LosesNothing controller resources emergencyResources calls outcome := by
  by_cases hsub : ∀ resource ∈ emergencyResources, resource ∈ resources
  · have hnot : ¬ ∃ resource ∈ emergencyResources, resource ∉ resources := by
      push Not
      exact hsub
    have hany : emergencyResources.any (fun resource => resource ∉ resources) = false := by
      simpa using hsub
    rw [compensateAbort, hany] at hrun
    cases hrun with
    | @perform _ _ cleanedUp _ _ hrun =>
    cases hrun with
    | @perform _ _ verified _ _ hrun =>
    cases verified with
    | true =>
      cases hrun
      exact ⟨fun h => absurd h hnot, fun _ => ⟨fun _ => by simp, fun _ => ⟨_, rfl, rfl⟩⟩,
        fun _ => ⟨cleanedUp, rfl⟩, fun _ h => absurd (by simp) h⟩
    | false =>
      obtain ⟨⟨answers, absent⟩, rfl, rfl⟩ :=
        (emergency_enumerates controller resources emergencyResources hkind _ _).mp hrun
      have hunverified : (⟨.verifyAuthoritativeAbsence, true⟩ : Called) ∉
          [⟨.authoritativeCleanup, cleanedUp⟩, ⟨.verifyAuthoritativeAbsence, false⟩] ++
            emergencyCalls controller emergencyResources answers.1 ++
            [⟨.verifyEmergencyAbsence, absent⟩] := by
        simp [verify_notMem_emergencyCalls]
      refine ⟨fun h => absurd h hnot, fun _ => ⟨?_, fun h => absurd h hunverified⟩,
        fun h => absurd h hunverified, fun _ _ => ⟨cleanedUp, answers.1, absent, answers.2, rfl,
          fun _ => verdict_ok_iff, fun _ => verdict_error⟩⟩
      rintro ⟨report, hreport, htrue⟩
      rw [(verdict_ok_iff.mp hreport).2] at htrue
      cases htrue
  · have hany : emergencyResources.any (fun resource => resource ∉ resources) = true := by
      simpa using hsub
    rw [compensateAbort, hany] at hrun
    cases hrun
    exact ⟨fun _ => ⟨rfl, rfl⟩, fun h => absurd h hsub, (by simp), fun h => absurd h hsub⟩

namespace Instance

def coordinates : Finmap fun _ : String => String :=
  ((((∅ : Finmap fun _ : String => String).insert "zone_id" "zone").insert "hostname"
    "public.example").insert "dns_record_id" "dns").insert "tunnel_id" "tunnel"

def resource : ExactOwnedIngressResource where
  providerKind := "cloudflare"
  ingressId := "ingress"
  epoch := 1
  publicProviderCoordinates := coordinates
  sourceRunId := "run"
  secretReference := "secret://provider/connector"
  providerVersionId := "version"
  providerVersionNumber := 1
  epoch_pos := by decide
  providerVersionNumber_pos := by decide
  coordinates_ne := by decide

def controller : Controller :=
  ⟨"workspace", fun _ => none, []⟩

/-- The tunnel cannot be deleted. -/
def answers : StageAnswers :=
  ⟨true, true, true, true, true, false⟩

theorem compensateAbort_runs : (compensateAbort controller.emergencyCompensators [resource]
    [resource]).Runs
      (⟨.authoritativeCleanup, false⟩ :: ⟨.verifyAuthoritativeAbsence, false⟩ ::
        (emergencyCalls controller [resource] [answers] ++ [⟨.verifyEmergencyAbsence, true⟩]))
      (verdict (reported controller [resource] [answers] true) [resource] [resource]) := by
  have hany : [resource].any (fun other => other ∉ [resource]) = false := by simp
  rw [compensateAbort, hany]
  have hkind : ∀ other ∈ [resource], other.providerKind = "cloudflare" := by
    simp [resource]
  exact .perform (.perform ((emergency_enumerates controller [resource] [resource] hkind _ _).mpr
    ⟨(⟨[answers], rfl⟩, true), rfl, rfl⟩))

theorem compensateAbort_reportsTunnel : LosesNothing controller [resource] [resource]
    (⟨.authoritativeCleanup, false⟩ :: ⟨.verifyAuthoritativeAbsence, false⟩ ::
      (emergencyCalls controller [resource] [answers] ++ [⟨.verifyEmergencyAbsence, true⟩]))
    (verdict (reported controller [resource] [answers] true) [resource] [resource]) :=
  compensateAbort_losesNothing controller [resource] [resource] (by simp [resource])
    compensateAbort_runs

end Instance

end SourceLive

end ControlPlaneKit

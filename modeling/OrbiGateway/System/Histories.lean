import OrbiGateway.System.Effects

/-!
# Reading a history

Who claimed a request, which result submissions were accepted for it and which
reservations were settled, all read off the events of a run, newest first.  A
list of operations can also be run: `runOps` computes the history and the state
it leads to.
-/

namespace OrbiGateway

open Relational Transition

/-! ## Claims -/

/-- The worker to which the event assigned the request, if it did. -/
def Event.claimantOf (id : UUID) : Event → Option UUID
  | .performed (.claim worker _ _) (.claimed (some winner)) _ =>
      if winner.id = id then some worker.id else none
  | _ => none

/-- The workers to which the request was assigned, one entry for each successful
claim. -/
def claimants (id : UUID) (history : List Event) : List UUID :=
  history.filterMap (Event.claimantOf id)

/-- The worker that performed the most recent claim of the request. -/
def lastClaimant (id : UUID) (history : List Event) : Option UUID :=
  (claimants id history).head?

@[simp] theorem claimants_failed (id : UUID) (op : Op) (failure : Failure)
    (history : List Event) :
    claimants id (.failed op failure :: history) = claimants id history := rfl

@[simp] theorem claimants_rescanned (id : UUID) (history : List Event) :
    claimants id (.rescanned :: history) = claimants id history := rfl

theorem claimants_claimed {id : UUID} {worker : Worker} {leaseSeconds : ℤ}
    {now : Timestamp} {winner : OrbiRequest} {settled : List Settlement}
    {history : List Event} (hid : winner.id = id) :
    claimants id (.performed (.claim worker leaseSeconds now)
      (.claimed (some winner)) settled :: history) =
        worker.id :: claimants id history := by
  simp [claimants, Event.claimantOf, hid]

theorem claimants_of_not_takes {id : UUID} {op : Op} {reply : Reply}
    {settled : List Settlement} {history : List Event}
    (hother : ¬TakesRequest id op reply) :
    claimants id (.performed op reply settled :: history) = claimants id history := by
  have hnone : Event.claimantOf id (.performed op reply settled) = none := by
    unfold Event.claimantOf
    split
    next heq =>
      cases heq
      rw [if_neg]
      exact hother
    · rfl
  simp [claimants, hnone]

/-! ## Accepted results and settlements -/

/-- The event is a result submission for the request that returned `True`. -/
def Event.acceptsResult (id : UUID) : Event → Bool
  | .performed (.submitResult _ payload _) (.resultAccepted true) _ =>
      payload.requestId == id
  | _ => false

/-- The event is an error report for the request that returned `True`. -/
def Event.acceptsError (id : UUID) : Event → Bool
  | .performed (.submitError _ payload) (.errorAccepted true) _ =>
      payload.requestId == id
  | _ => false

/-- The requests whose reservations the event settled. -/
def Event.settledIds : Event → List UUID
  | .performed _ _ settled => settled.map Settlement.requestId
  | _ => []

/-- The requests settled in a history, with repetitions. -/
def settledIds (history : List Event) : List UUID :=
  history.flatMap Event.settledIds

/-! ## Running operations -/

/-- One operation as a step of a run. -/
def perform (db : Db) (op : Op) : Event × Db :=
  match exec db op with
  | .ok (reply, db') => (.performed op reply (settlements db op), db')
  | .error failure => (.failed op failure, db)

theorem step_perform (db : Db) (op : Op) :
    Step db (perform db op).1 (perform db op).2 := by
  unfold perform
  split
  next hexec => exact .performed hexec
  next hexec => exact .failed hexec

theorem step_of_isOk {db : Db} {op : Op} (h : (exec db op).isOk = true) :
    ∃ reply settled, Step db (.performed op reply settled) (perform db op).2 := by
  unfold perform
  cases hexec : exec db op with
  | ok outcome => exact ⟨_, _, .performed hexec⟩
  | error failure =>
      rw [hexec] at h
      cases h

/-- Run operations in order; the history comes out newest first. -/
def runOps (db : Db) (ops : List Op) : List Event × Db :=
  ops.foldl (fun run op =>
    ((perform run.2 op).1 :: run.1, (perform run.2 op).2)) ([], db)

theorem runOps_cons (db : Db) (op : Op) (ops : List Op) :
    runOps db (op :: ops) =
      ((runOps (perform db op).2 ops).1 ++ [(perform db op).1],
        (runOps (perform db op).2 ops).2) := by
  have hfold : ∀ (ops : List Op) (newer older : List Event) (db : Db),
      ops.foldl (fun run op => ((perform run.2 op).1 :: run.1, (perform run.2 op).2))
          (newer ++ older, db) =
        ((ops.foldl (fun run op => ((perform run.2 op).1 :: run.1, (perform run.2 op).2))
            (newer, db)).1 ++ older,
          (ops.foldl (fun run op => ((perform run.2 op).1 :: run.1, (perform run.2 op).2))
            (newer, db)).2) := by
    intro ops
    induction ops with
    | nil =>
        intro newer older db
        rfl
    | cons op ops ih =>
        intro newer older db
        exact ih ((perform db op).1 :: newer) older (perform db op).2
  exact hfold ops [] [(perform db op).1] (perform db op).2

/-- What `runOps` computes is a run. -/
theorem history_runOps (db : Db) (ops : List Op) :
    History db (runOps db ops).1 (runOps db ops).2 :=
  run_performAll step_perform db ops

/-! ## A small deployment

One project, one key, one alias and one worker, for the runs that show that a
statement is not vacuous. -/

namespace Sample

def day : Date := ⟨2026, 6, 29, by decide, by decide, by decide, by decide⟩

def nextDay : Date := ⟨2026, 6, 30, by decide, by decide, by decide, by decide⟩

def capabilities : Json := .obj [("text_generation", .bool true)]

def project : Project where
  id := 1
  monthlyTokenLimit := 1000
  monthlyTokensUsed := 0
  dailyTokenLimit := 100
  dailyTokensUsed := 0
  dailyUsageDate := day
  monthlyUsageMonth := day.replaceDayOne
  isActive := true

def apiKey : APIKey where
  id := 10
  projectId := 1
  keyId := "Integration1"
  secretHash := "hash"
  environment := "test"
  scopes := ["chat"]
  expiresAt := none
  revokedAt := none
  lastUsedAt := none
  totalRequests := 0
  totalTokens := 0
  rpmLimit := 60
  dailyReqLimit := 1000
  dailyRequestsUsed := 0
  dailyRequestsDate := day

def modelAlias : ModelAlias where
  aliasName := "orbi-default"
  modelId := "test/model"
  isActive := true
  requiredCapabilities := capabilities

def worker : Worker where
  id := 20
  providerType := "docker"
  status := .online
  supportedModels := ["test/model"]
  capabilities := capabilities
  currentQueueDepth := 0
  tokenJti := some "jti"
  lastHeartbeat := none
  revokedAt := none

def db : Db where
  projects := ⟨[project], by decide⟩
  apiKeys := ⟨[apiKey], by decide⟩
  modelAliases := ⟨[modelAlias], by decide⟩
  workers := ⟨[worker], by decide⟩
  requests := .empty
  usageRecords := .empty

theorem fresh_db : Fresh db where
  requests_empty := rfl
  usageRecords_empty := rfl
  counters_zero := by
    intro project hproject period
    cases List.mem_singleton.mp hproject
    cases period <;> rfl

def payload : ChatCompletionRequest where
  model := "orbi-default"
  messages := [⟨.user, "hi", by decide, by decide⟩]
  maxTokens := 8
  temperature := 0
  model_nonempty := by decide
  model_le := by decide
  messages_nonempty := by decide
  messages_le := by decide
  maxTokens_pos := by decide
  maxTokens_le := by decide
  temperature_nonneg := by decide
  temperature_le := by decide

/-- A chat call at instant `now` that would queue request `requestId`. -/
def call (requestId : UUID) (idempotencyKey : Option String) (now : Timestamp) :
    ChatCall where
  key := ⟨"test", "Integration1", "secret"⟩
  keyReadings := {
    verifySecret := fun secret hash => secret == "secret" && hash == "hash"
    allowMinute := fun _ _ => true
    activeNow := now
    now := now
    today := day }
  idempotencyKey := idempotencyKey
  payload := payload
  readings := ⟨requestId, now, day, now⟩

def resultFor (requestId : UUID) (inputTokens outputTokens : ℤ)
    (hinput : 0 ≤ inputTokens) (houtput : 0 ≤ outputTokens) :
    WorkerResultRequest where
  requestId := requestId
  result := [("object", .str "chat.completion")]
  inputTokens := inputTokens
  outputTokens := outputTokens
  latencyMs := 25
  inputTokens_nonneg := hinput
  outputTokens_nonneg := houtput
  latencyMs_nonneg := by decide

/-- A result for request 100. -/
def answer : WorkerResultRequest := resultFor 100 2 5 (by decide) (by decide)

def errorFor (requestId : UUID) : WorkerErrorRequest where
  requestId := requestId
  errorCode := "worker_failed"
  message := "worker failed"
  errorCode_nonempty := by decide
  errorCode_le := by decide
  errorCode_chars := by decide
  message_nonempty := by decide
  message_le := by decide

/-- One request, accepted and claimed. -/
def assigned : List Op :=
  [.chat (call 100 none 0), .claim worker 120 1]

/-- The state in which the worker holds the request. -/
def assignedDb : Db := (runOps db assigned).2

/-- Acceptance, claim, failure, second claim and completion of one request. -/
def lifecycle : List Op :=
  [.chat (call 100 (some "idempotency-1") 0),
    .claim worker 120 1,
    .submitError worker (errorFor 100),
    .claim worker 120 2,
    .submitResult worker (resultFor 100 2 5 (by decide) (by decide)) 3]

end Sample

example : (runOps Sample.db Sample.lifecycle).2.requests.rows.map
    (fun r => (r.status, r.retryCount)) = [(.completed, 1)] := by decide

example : (runOps Sample.db Sample.lifecycle).2.projects.rows.map
    (fun p => p.dailyTokensUsed) = [7] := by decide

end OrbiGateway

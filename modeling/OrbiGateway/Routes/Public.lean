import OrbiGateway.Routes.Chat
import OrbiGateway.Library.Outcome

/-!
# Public routes

The three public routes behind `require_api_key` and a scope, and the session around
them.  The session commits what a route has done, or rolls back everything since the
authentication if the scope check or the route raises an error.
-/

namespace OrbiGateway

open Relational

/-! ## Models and usage -/

/-- `list_models`: the active aliases. -/
def listModels (db : Db) : List ModelAlias :=
  db.modelAliases.rows.filter fun modelAlias => modelAlias.isActive

/-- The token budget of one period, as `get_usage` reports it. -/
structure PeriodUsage where
  date : Date
  tokensUsedOrReserved : ℤ
  tokenLimit : ℤ

/-- The answer of `get_usage`. -/
structure UsageReport where
  projectId : UUID
  daily : PeriodUsage
  monthly : PeriodUsage
  completedRequests : ℤ
  completedTokens : ℤ
  dailyRequestsUsed : ℤ
  dailyRequestLimit : ℤ

def getUsage (db : Db) (apiKey : APIKey) : Except Failure UsageReport :=
  match db.projects.find apiKey.projectId with
  | none => .error .noResultFound
  | some project => .ok {
      projectId := project.id
      daily := ⟨project.dailyUsageDate, project.dailyTokensUsed, project.dailyTokenLimit⟩
      monthly :=
        ⟨project.monthlyUsageMonth, project.monthlyTokensUsed, project.monthlyTokenLimit⟩
      completedRequests := apiKey.totalRequests
      completedTokens := apiKey.totalTokens
      dailyRequestsUsed := apiKey.dailyRequestsUsed
      dailyRequestLimit := apiKey.dailyReqLimit }

/-! ## Calls -/

/-- A call of a public route, with its parsed bearer key and its readings. -/
inductive PublicCall
  | chat (call : ChatCall)
  | listModels (key : ParsedKey) (keyReadings : KeyReadings)
  | getUsage (key : ParsedKey) (keyReadings : KeyReadings)

inductive PublicReply
  | chat (reply : ChatReply)
  | models (models : List ModelAlias)
  | usage (report : UsageReport)

namespace PublicCall

def key : PublicCall → ParsedKey
  | .chat call => call.key
  | .listModels key _ => key
  | .getUsage key _ => key

def keyReadings : PublicCall → KeyReadings
  | .chat call => call.keyReadings
  | .listModels _ keyReadings => keyReadings
  | .getUsage _ keyReadings => keyReadings

/-- The scope that the route requires. -/
def requiredScope : PublicCall → String
  | .chat _ => "chat"
  | .listModels _ _ => "models:read"
  | .getUsage _ _ => "usage:read"

/-- The route after its dependencies. -/
def route (db : Db) (apiKey : APIKey) : PublicCall → Except Failure (PublicReply × Db)
  | .chat call => do
      let (reply, db) ← createChatCompletion db apiKey call
      return (.chat reply, db)
  | .listModels _ _ => .ok (.models (OrbiGateway.listModels db), db)
  | .getUsage _ _ => do
      let report ← OrbiGateway.getUsage db apiKey
      return (.usage report, db)

/-- The dependencies and the route, on one session. -/
def serve (db : Db) (call : PublicCall) : Except Failure (PublicReply × Db) := do
  let (apiKey, db) ← requireApiKey db call.key call.keyReadings
  requireApiScope call.requiredScope apiKey
  call.route db apiKey

/-- The committed rows after the call: `Database.session` commits, or rolls back. -/
def session (db : Db) (call : PublicCall) : Db :=
  match call.serve db with
  | .ok (_, db') => db'
  | .error _ => db

/-- The key that `require_api_key` admits the call under, if it does. -/
def admittedKey (db : Db) (call : PublicCall) : Option UUID :=
  match requireApiKey db call.key call.keyReadings with
  | .ok (apiKey, _) => some apiKey.id
  | .error _ => none

end PublicCall

theorem serve_chat (db : Db) (call : ChatCall) :
    PublicCall.serve db (.chat call) = do
      let (reply, db) ← acceptChat db call
      return (.chat reply, db) := by
  simp only [PublicCall.serve, PublicCall.route, acceptChat, bind_assoc]
  rfl

end OrbiGateway

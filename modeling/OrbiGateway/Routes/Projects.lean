import OrbiGateway.Models.Entities
import OrbiGateway.Schemas

/-!
# Project creation

`create_project` of the administration routes.  The columns of a project that name it are
written here only, so they stand in a table of their own beside the rows of `projects`.
-/

namespace OrbiGateway

open Relational

/-- The columns of `projects` that only `create_project` writes. -/
structure ProjectName where
  id : UUID
  name : String
  slug : String
  ownerId : UUID

/-- Names are keyed by the unique `slug` column. -/
instance : HasKey ProjectName String := ⟨ProjectName.slug⟩

/-- The committed rows with the names of the projects. -/
structure NamedDb extends Db where
  projectNames : Table ProjectName

def projectConflict : OrbiError :=
  ⟨"project_conflict", "Project slug already exists.", 409⟩

/-- What `create_project` reads outside the database: the id that the new row draws and
the `CURRENT_DATE` of its server defaults. -/
structure ProjectReadings where
  projectId : UUID
  currentDate : Date

structure ProjectResponse where
  id : UUID
  name : String
  slug : String

/-- The row that `create_project` adds, with its defaults. -/
def newProject (payload : ProjectCreateRequest) (readings : ProjectReadings) : Project where
  id := readings.projectId
  monthlyTokenLimit := payload.monthlyTokenLimit
  monthlyTokensUsed := 0
  dailyTokenLimit := payload.dailyTokenLimit
  dailyTokensUsed := 0
  dailyUsageDate := readings.currentDate
  monthlyUsageMonth := readings.currentDate.replaceDayOne
  isActive := true

def newProjectName (payload : ProjectCreateRequest) (readings : ProjectReadings) :
    ProjectName where
  id := readings.projectId
  name := payload.name
  slug := payload.slug
  ownerId := payload.ownerId

/-- `create_project`. -/
def createProject (db : NamedDb) (payload : ProjectCreateRequest)
    (readings : ProjectReadings) : Except Failure (ProjectResponse × NamedDb) :=
  match db.projects.insert (newProject payload readings),
      db.projectNames.insert (newProjectName payload readings) with
  | some projects, some projectNames =>
      .ok ({ id := readings.projectId, name := payload.name, slug := payload.slug },
        { db with projects := projects, projectNames := projectNames })
  | _, _ => .error (.orbi projectConflict)

/-- A creation that returns has added one project and its name. -/
theorem createProject_spec {db db' : NamedDb} {payload : ProjectCreateRequest}
    {readings : ProjectReadings} {response : ProjectResponse}
    (h : createProject db payload readings = .ok (response, db')) :
    ∃ projects projectNames,
      db.projects.insert (newProject payload readings) = some projects ∧
      db.projectNames.insert (newProjectName payload readings) = some projectNames ∧
      db' = { db with projects := projects, projectNames := projectNames } := by
  unfold createProject at h
  split at h
  next projects projectNames hprojects hnames =>
    cases h
    exact ⟨projects, projectNames, hprojects, hnames, rfl⟩
  · cases h

end OrbiGateway

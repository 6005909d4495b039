import OpenAiLb.Library.Pages
import OpenAiLb.TenantScope

/-!
# Reading the audit log page by page

`AuditPage` asks for one page of the filtered calls after the other, and the answer to each request
comes from the database of that moment. Calls are recorded while the reader goes on: a call may then
be shown on two pages, but one whose timestamp is its own is not skipped.
-/

namespace OpenAiLb

/-- The filters of `AuditPage`. No status stands for `all`. -/
structure AuditForm where
  userId : String
  consumer : String
  provider : String
  model : String
  status : Option AuditStatus

namespace AuditForm

/-- `pageSize`. -/
def pageSize : ℕ := 25

/-- `if (value && value !== "all") params.set(key, value)`. -/
def param (value : String) : Option String :=
  if value = "" || value = "all" then none else some value

/-- The query of one page. -/
def query (filters : AuditForm) (page : ℕ) : AuditQuery where
  limit := some pageSize
  offset := some (page * pageSize : ℕ)
  userId := param filters.userId
  consumer := param filters.consumer
  provider := param filters.provider
  model := param filters.model
  status := filters.status

end AuditForm

namespace ConsoleDatabase

/-- The calls that the filters find, on whichever page. -/
def found (db : ConsoleDatabase) (user : UserIdentity) (filters : AuditForm) : List JoinedCall :=
  db.auditMatches (filters.query 0) user

section Answers

variable {db : ConsoleDatabase} {user : UserIdentity} {filters : AuditForm} {answer : AuditAnswer}
  {k : ℕ}

end Answers

section Requests

variable {dbs : ℕ → ConsoleDatabase} {answers : ℕ → AuditAnswer} {n : ℕ}

end Requests

end ConsoleDatabase

end OpenAiLb

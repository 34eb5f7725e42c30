-- SUMMARY: The message patterns and roles that gateway and services share.
import Mathlib.Init

/-!
# Constants
-/
namespace Common

namespace AUTH_PATTERNS
def REGISTER := "auth.user.register"
def LOGIN := "auth.user.login"
def LOGOUT := "auth.user.logout"
def REFRESH_TOKEN := "auth.token.refresh"
def VALIDATE_TOKEN := "auth.token.validate"
end AUTH_PATTERNS

namespace USER_PATTERNS
def FIND_BY_ID := "user.findById"
def FIND_BY_EMAIL := "user.findByEmail"
def LIST := "user.list"
def UPDATE := "user.update"
def DELETE := "user.delete"
end USER_PATTERNS

/-- The patterns that todos and books both have. -/
structure ItemPatterns where
  CREATE : String
  FIND_BY_ID : String
  FIND_BY_USER : String
  UPDATE : String
  DELETE : String
  LIST : String

def TODO_PATTERNS : ItemPatterns where
  CREATE := "todo.create"
  FIND_BY_ID := "todo.findById"
  FIND_BY_USER := "todo.findByUser"
  UPDATE := "todo.update"
  DELETE := "todo.delete"
  LIST := "todo.list"

def TODO_PATTERNS.FIND_BY_STATUS := "todo.findByStatus"

def BOOK_PATTERNS : ItemPatterns where
  CREATE := "book.create"
  FIND_BY_ID := "book.findById"
  FIND_BY_USER := "book.findByUser"
  UPDATE := "book.update"
  DELETE := "book.delete"
  LIST := "book.list"

namespace BOOK_PATTERNS
def FIND_BY_READ_STATUS := "book.findByReadStatus"
def FIND_BY_GENRE := "book.findByGenre"
end BOOK_PATTERNS

namespace UserRole
def ADMIN := "admin"
def USER := "user"
def GUEST := "guest"
end UserRole

end Common

/-! The roles of `@app/constants` are spelt in capitals. -/

namespace Constants.UserRole
def SUPER_ADMIN := "SUPER_ADMIN"
def ADMIN := "ADMIN"
def USER := "USER"
def GUEST := "GUEST"
end Constants.UserRole

namespace Constants.ERROR_CODES
def VALIDATION_FAILED := "VALIDATION_FAILED"
def UNAUTHORIZED := "UNAUTHORIZED"
def FORBIDDEN := "FORBIDDEN"
def NOT_FOUND := "NOT_FOUND"
def CONFLICT := "CONFLICT"
def RATE_LIMITED := "RATE_LIMITED"
def INTERNAL_ERROR := "INTERNAL_ERROR"
def SERVICE_UNAVAILABLE := "SERVICE_UNAVAILABLE"
end Constants.ERROR_CODES

-- SUMMARY: The todos and the books service: repositories, services and the message handlers of their TCP controllers.
import NestPlatform.Database.AbstractRepository
import NestPlatform.Database.Schemas

/-!
# The todos service and the books service

The two services have the same methods on different models; each adds its own list
queries. An item is selected by its id alone, and a message is itself the update.
-/
namespace Items

open Js Mongo Nest Common Database

variable (M : Mongoose)

/-! ## What both services have -/

section

variable (S : Schema) (env : Env)

def ItemsRepository.findByUser (userId skip limit : Value) : Store Page :=
  AbstractRepository.findLive M S env [("userId", userId)] [("createdAt", true)] skip limit

namespace ItemsService

/-- `{ userId, ...data }` -/
def create (userId : Value) (data : Entries) : Store Doc :=
  AbstractRepository.create M S env (Entries.assign [("userId", userId)] data)

def findById (id : Value) : Store Doc := AbstractRepository.findById M S env id

def findByUser (userId skip limit : Value) : Store Page :=
  ItemsRepository.findByUser M S env userId skip limit

def update (id : Value) (data : Entries) : Store Doc :=
  AbstractRepository.findOneAndUpdate M S env (byId id) (.body (.obj data))

def delete (id : Value) : Store Doc := AbstractRepository.softDelete M S env (byId id)

def list (userId skip limit : Value) : Store Page := findByUser M S env userId skip limit

end ItemsService

/-- `dto.skip || 0` -/
def skip (dto : Entries) : Value := (dto.get "skip").or (.nat 0)

/-- `dto.limit || 10` -/
def limit (dto : Entries) : Value := (dto.get "limit").or (.nat 10)

/-- The handler that both controllers have for a pattern, if any. -/
def ItemsController.handle (patterns : ItemPatterns) (pattern : String) (dto : Entries) :
    Option (Store Value) :=
  if pattern = patterns.CREATE then
    some (toObject S <$> ItemsService.create M S env (dto.get "userId") dto)
  else if pattern = patterns.FIND_BY_ID then
    some (toObject S <$> ItemsService.findById M S env (dto.get "id"))
  else if pattern = patterns.FIND_BY_USER then
    some (Page.toObject S <$>
      ItemsService.findByUser M S env (dto.get "userId") (skip dto) (limit dto))
  else if pattern = patterns.UPDATE then
    some (toObject S <$> ItemsService.update M S env (dto.get "id") dto)
  else if pattern = patterns.DELETE then
    some (toObject S <$> ItemsService.delete M S env (dto.get "id"))
  else if pattern = patterns.LIST then
    some (Page.toObject S <$> ItemsService.list M S env (dto.get "userId") (skip dto) (limit dto))
  else none

end

variable (env : Env)

/-! ## Todos -/

namespace TodosRepository

def findByUser := ItemsRepository.findByUser M TodoSchema env

def findByStatus (userId status skip limit : Value) : Store Page :=
  AbstractRepository.findLive M TodoSchema env [("userId", userId), ("status", status)]
    [("priority", true), ("createdAt", true)] skip limit

end TodosRepository

namespace TodosService

def create := ItemsService.create M TodoSchema env
def findById := ItemsService.findById M TodoSchema env
def findByUser := ItemsService.findByUser M TodoSchema env
def findByStatus := TodosRepository.findByStatus M env
def update := ItemsService.update M TodoSchema env
def delete := ItemsService.delete M TodoSchema env
def list := ItemsService.list M TodoSchema env

end TodosService

def TodosController.handle (pattern : String) (dto : Entries) : Option (Store Value) :=
  if pattern = TODO_PATTERNS.FIND_BY_STATUS then
    some (Page.toObject TodoSchema <$> TodosService.findByStatus M env (dto.get "userId")
      (dto.get "status") (skip dto) (limit dto))
  else ItemsController.handle M TodoSchema env TODO_PATTERNS pattern dto

/-! ## Books -/

namespace BooksRepository

def findByUser := ItemsRepository.findByUser M BookSchema env

def findByReadStatus (userId isRead skip limit : Value) : Store Page :=
  AbstractRepository.findLive M BookSchema env [("userId", userId), ("isRead", isRead)]
    [("createdAt", true)] skip limit

def findByGenre (userId genre skip limit : Value) : Store Page :=
  AbstractRepository.findLive M BookSchema env [("userId", userId), ("genres", genre)]
    [("createdAt", true)] skip limit

end BooksRepository

namespace BooksService

def create := ItemsService.create M BookSchema env
def findById := ItemsService.findById M BookSchema env
def findByUser := ItemsService.findByUser M BookSchema env
def findByReadStatus := BooksRepository.findByReadStatus M env
def findByGenre := BooksRepository.findByGenre M env
def update := ItemsService.update M BookSchema env
def delete := ItemsService.delete M BookSchema env
def list := ItemsService.list M BookSchema env

end BooksService

def BooksController.handle (pattern : String) (dto : Entries) : Option (Store Value) :=
  if pattern = BOOK_PATTERNS.FIND_BY_READ_STATUS then
    some (Page.toObject BookSchema <$> BooksService.findByReadStatus M env (dto.get "userId")
      (dto.get "isRead") (skip dto) (limit dto))
  else if pattern = BOOK_PATTERNS.FIND_BY_GENRE then
    some (Page.toObject BookSchema <$> BooksService.findByGenre M env (dto.get "userId")
      (dto.get "genre") (skip dto) (limit dto))
  else ItemsController.handle M BookSchema env BOOK_PATTERNS pattern dto

end Items

-- SUMMARY: The posts service: repository, service and HTTP controller.
import NestPlatform.Common.Guards
import NestPlatform.Database.AbstractRepository
import NestPlatform.Database.Schemas
import NestPlatform.Js.Double

/-!
# The posts service

`like` and `unlike` read the whole post, change `likedBy` and `likesCount` in memory
and write the whole post back.
-/
namespace Posts

open Js Mongo Nest Common Database

variable (M : Mongoose) (env : Env)

namespace PostsRepository

def findByUser (userId skip limit : Value) : Store Page :=
  AbstractRepository.findLive M PostSchema env [("userId", userId)] [("createdAt", true)] skip limit

def findPublished (skip limit : Value) : Store Page :=
  AbstractRepository.findLive M PostSchema env [("status", .str "published")]
    [("createdAt", true)] skip limit

def findByTag (tag skip limit : Value) : Store Page :=
  AbstractRepository.findLive M PostSchema env [("tags", tag), ("status", .str "published")]
    [("createdAt", true)] skip limit

end PostsRepository

/-! ## Likes in memory -/

/-- The post with the given `likedBy`, counted. -/
def withLikes (post : Doc) (likedBy : List Value) : Doc where
  id := post.id
  fields := Fields.assign post.fields
    [("likedBy", .arr likedBy), ("likesCount", .nat likedBy.length)]

/-- The post that `like` writes, if it writes one. -/
def addLike (userId : String) (post : Doc) : Except Thrown (Option Doc) :=
  match post.fields "likedBy" with
  | .arr likedBy =>
    if likedBy.contains (.str userId) then .ok none
    else .ok (some (withLikes post (likedBy ++ [.str userId])))
  | _ => .error (.error "TypeError")

/-- The post that `unlike` writes. -/
def dropLike (userId : String) (post : Doc) : Except Thrown (Option Doc) :=
  match post.fields "likedBy" with
  | .arr likedBy => .ok (some (withLikes post (likedBy.filter (· ≠ .str userId))))
  | _ => .error (.error "TypeError")

/-! ## The service -/

namespace PostsService

def create (userId : Value) (data : Entries) : Store Doc :=
  AbstractRepository.create M PostSchema env (Entries.assign [("userId", userId)] data)

def findById (id : Value) : Store Doc := AbstractRepository.findById M PostSchema env id

def findByUser (userId skip limit : Value) : Store Page :=
  PostsRepository.findByUser M env userId skip limit

def findPublished (skip limit : Value) : Store Page := PostsRepository.findPublished M env skip limit

def findByTag (tag skip limit : Value) : Store Page :=
  PostsRepository.findByTag M env tag skip limit

def update (id data : Value) : Store Doc :=
  AbstractRepository.findOneAndUpdate M PostSchema env (byId id) (.body data)

def delete (id : Value) : Store Doc := AbstractRepository.softDelete M PostSchema env (byId id)

/-- A post is read, edited and written back. -/
def editLikes (edit : Doc → Except Thrown (Option Doc)) (postId : Value) : Store Doc := do
  let post ← AbstractRepository.findById M PostSchema env postId
  match edit post with
  | .error e => throw e
  | .ok none => pure post
  | .ok (some post) =>
    AbstractRepository.findOneAndUpdate M PostSchema env (byId postId) (.document post)

def like (postId : Value) (userId : String) : Store Doc := editLikes M env (addLike userId) postId

def unlike (postId : Value) (userId : String) : Store Doc :=
  editLikes M env (dropLike userId) postId

def list (skip limit : Value) : Store Page := findPublished M env skip limit

end PostsService

/-! ## The controller -/

namespace PostsController

def create (user : JwtPayload) (dto : Value) : Store Doc :=
  PostsService.create M env (.str user.sub) dto.entries

/-- A query parameter that has a default. -/
def orDefault (v : Value) (n : ℕ) : Value := if v = .undefined then .nat n else v

/-- `(page - 1) * limit`, for query parameters of any type. -/
def skip (page limit : Value) : Except Thrown Value :=
  match page.toDouble, limit.toDouble with
  | some page, some limit => .ok (.num ((page.minus (1 : ℕ)).times limit))
  | _, _ => .error (.error "TypeError")

/-- The page that the query parameters ask for. -/
def paged (page limit : Value) (go : Value → Value → Store Page) : Store Page :=
  match skip (orDefault page 1) (orDefault limit 10) with
  | .ok skip => go skip (orDefault limit 10)
  | .error e => throw e

def list (page limit tag : Value) : Store Page :=
  paged page limit fun skip limit =>
    if tag.truthy then PostsService.findByTag M env tag skip limit
    else PostsService.list M env skip limit

/-- The roles of this controller are those of `@app/constants`. -/
def getUserPosts (userId : String) (page limit : Value) (user : JwtPayload) : Store Page :=
  if user.sub ≠ userId ∧ user.role ≠ Constants.UserRole.ADMIN then throw (.error "Error")
  else paged page limit fun skip limit => PostsService.findByUser M env (.str userId) skip limit

def findById (id : String) : Store Doc := PostsService.findById M env (.str id)

/-- The check that `update`, `delete` and `publish` make before they go on. -/
def asOwner (id : String) (user : JwtPayload) (go : Store Doc) : Store Doc := do
  let post ← PostsService.findById M env (.str id)
  if post.fields "userId" ≠ .str user.sub ∧ user.role ≠ Constants.UserRole.ADMIN then
    throw (.error "Error")
  else go

def update (id : String) (user : JwtPayload) (dto : Value) : Store Doc :=
  asOwner M env id user (PostsService.update M env (.str id) dto)

def delete (id : String) (user : JwtPayload) : Store Doc :=
  asOwner M env id user (PostsService.delete M env (.str id))

def like (postId : String) (user : JwtPayload) : Store Doc :=
  PostsService.like M env (.str postId) user.sub

def unlike (postId : String) (user : JwtPayload) : Store Doc :=
  PostsService.unlike M env (.str postId) user.sub

def publish (id : String) (user : JwtPayload) : Store Doc :=
  asOwner M env id user
    (PostsService.update M env (.str id) (.obj [("status", .str "published")]))

end PostsController
end Posts

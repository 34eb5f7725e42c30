-- SUMMARY: The operations that the four services expose on their collections, as one type.
import NestPlatform.Items.Service
import NestPlatform.Posts.Service
import NestPlatform.Users.Service

/-!
# Operations of the services

Every operation belongs to one service, runs on the collection of that service and
answers with documents.
-/
namespace Services

open Js Mongo Nest Common Database

inductive Service where
  | users
  | todos
  | books
  | posts
  deriving DecidableEq

def Service.schema : Service → Schema
  | users => UserSchema
  | todos => TodoSchema
  | books => BookSchema
  | posts => PostSchema

/-! ## Answers -/

inductive Answer where
  | one (doc : Doc)
  | optional (doc : Option Doc)
  | page (p : Page)

namespace Answer

/-- The documents in the answer. -/
def docs : Answer → List Doc
  | one doc => [doc]
  | optional doc => doc.toList
  | page p => p.items

def total : Answer → Option ℕ
  | page p => some p.total
  | _ => none

end Answer

/-! ## Operations -/

inductive UsersOperation where
  | findById (id : Value)
  | findByEmail (email : Value)
  | list (skip limit : Value)
  | update (id updates : Value)
  | delete (id : Value)

inductive ItemsOperation where
  | create (userId : Value) (data : Entries)
  | findById (id : Value)
  | findByUser (userId skip limit : Value)
  | update (id : Value) (data : Entries)
  | delete (id : Value)
  | list (userId skip limit : Value)

inductive PostsOperation where
  | create (user : JwtPayload) (dto : Value)
  | list (page limit tag : Value)
  | getUserPosts (userId : String) (page limit : Value) (user : JwtPayload)
  | findById (id : String)
  | update (id : String) (user : JwtPayload) (dto : Value)
  | delete (id : String) (user : JwtPayload)
  | like (postId : String) (user : JwtPayload)
  | unlike (postId : String) (user : JwtPayload)
  | publish (id : String) (user : JwtPayload)

inductive Operation where
  | users (op : UsersOperation)
  | todos (op : ItemsOperation)
  | todosByStatus (userId status skip limit : Value)
  | books (op : ItemsOperation)
  | booksByReadStatus (userId isRead skip limit : Value)
  | booksByGenre (userId genre skip limit : Value)
  | posts (op : PostsOperation)

variable (M : Mongoose) (env : Env)

namespace UsersOperation

open Users

def run : UsersOperation → Store Answer
  | findById id => .one <$> UsersService.findById M env id
  | findByEmail email => .optional <$> UsersService.findByEmail M env email
  | list skip limit => .page <$> UsersService.list M env skip limit
  | update id updates => .one <$> UsersService.update M env id updates
  | delete id => .one <$> UsersService.delete M env id

/-- The id of the document that the operation is addressed to. -/
def addressee : UsersOperation → Option Value
  | findById id | update id _ | delete id => some id
  | findByEmail _ | list _ _ => none

end UsersOperation

namespace ItemsOperation

open Items

def run (S : Schema) : ItemsOperation → Store Answer
  | create userId data => .one <$> ItemsService.create M S env userId data
  | findById id => .one <$> ItemsService.findById M S env id
  | findByUser userId skip limit => .page <$> ItemsService.findByUser M S env userId skip limit
  | update id data => .one <$> ItemsService.update M S env id data
  | delete id => .one <$> ItemsService.delete M S env id
  | list userId skip limit => .page <$> ItemsService.list M S env userId skip limit

def addressee : ItemsOperation → Option Value
  | findById id | update id _ | delete id => some id
  | create _ _ | findByUser _ _ _ | list _ _ _ => none

end ItemsOperation

namespace PostsOperation

open Posts

def run : PostsOperation → Store Answer
  | create user dto => .one <$> PostsController.create M env user dto
  | list page limit tag => .page <$> PostsController.list M env page limit tag
  | getUserPosts userId page limit user =>
    .page <$> PostsController.getUserPosts M env userId page limit user
  | findById id => .one <$> PostsController.findById M env id
  | update id user dto => .one <$> PostsController.update M env id user dto
  | delete id user => .one <$> PostsController.delete M env id user
  | like postId user => .one <$> PostsController.like M env postId user
  | unlike postId user => .one <$> PostsController.unlike M env postId user
  | publish id user => .one <$> PostsController.publish M env id user

def addressee : PostsOperation → Option Value
  | create _ _ | list _ _ _ | getUserPosts _ _ _ _ => none
  | findById id | update id _ _ | delete id _ | like id _ | unlike id _ | publish id _ =>
    some (.str id)

end PostsOperation

namespace Operation

def service : Operation → Service
  | users _ => .users
  | todos _ | todosByStatus _ _ _ _ => .todos
  | books _ | booksByReadStatus _ _ _ _ | booksByGenre _ _ _ _ => .books
  | posts _ => .posts

def run : Operation → Store Answer
  | users op => op.run M env
  | todos op => op.run M env TodoSchema
  | todosByStatus userId status skip limit =>
    .page <$> Items.TodosService.findByStatus M env userId status skip limit
  | books op => op.run M env BookSchema
  | booksByReadStatus userId isRead skip limit =>
    .page <$> Items.BooksService.findByReadStatus M env userId isRead skip limit
  | booksByGenre userId genre skip limit =>
    .page <$> Items.BooksService.findByGenre M env userId genre skip limit
  | posts op => op.run M env

def addressee : Operation → Option Value
  | users op => op.addressee
  | todos op | books op => op.addressee
  | posts op => op.addressee
  | todosByStatus _ _ _ _ | booksByReadStatus _ _ _ _ | booksByGenre _ _ _ _ => none

end Operation

/-! ## Runs -/

/-- The collections of the four services. -/
abbrev Collections := Service → Collection

/-- An operation with what it takes from its surroundings. -/
structure Call where
  env : Env
  op : Operation

def Call.after (M : Mongoose) (call : Call) (db : Collections) : Collections :=
  Function.update db call.op.service ((call.op.run M call.env).exec (db call.op.service)).2

def Step (M : Mongoose) (db : Collections) (call : Call) (db' : Collections) : Prop :=
  db' = call.after M db

end Services

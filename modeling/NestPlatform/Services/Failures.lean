-- SUMMARY: The handlers of the user, todos and books services: what they throw and return, and that they write nothing when they throw.
import NestPlatform.Gateway.Items
import NestPlatform.Gateway.Users
import NestPlatform.Lib.Failure

/-!
# Failures of the services

The handlers throw `HttpException`s and the errors of the database, and only before they write.
-/
namespace Services

open Js Mongo Nest Common Database Effect

/-- What the methods of repositories and services throw. -/
inductive ServiceError : Thrown → Prop where
  | notFound (message : String) : ServiceError (.http (NotFoundException message))
  | other (name : String) : ServiceError (.error name)

/-- No `RpcException`. -/
def Plain (t : Thrown) : Prop := ∀ error, t ≠ .rpc error

theorem plain_http (e : HttpException) : Plain (.http e) := fun _ => Thrown.noConfusion

theorem plain_error (name : String) : Plain (.error name) := fun _ => Thrown.noConfusion

theorem ServiceError.plain (t : Thrown) (h : ServiceError t) : Plain t := by
  cases h with
  | notFound message => exact plain_http _
  | other name => exact plain_error name

variable {α : Type} {M : Mongoose} {S : Schema} {env : Env}

/-! ## The repository -/

theorem throws_query (f : Collection → Except Fault α) : Throws ServiceError (query f) := by
  intro c c' e h
  rw [exec_query] at h
  cases hf : f c with
  | ok a =>
    rw [hf] at h
    cases h
  | error fault =>
    rw [hf] at h
    cases h
    exact .other _

theorem throws_command (f : Collection → Except Fault (α × Collection)) :
    Throws ServiceError (command f) := by
  intro c c' e h
  rw [exec_command] at h
  cases hf : f c with
  | ok result =>
    rw [hf] at h
    cases h
  | error fault =>
    rw [hf] at h
    cases h
    exact .other _

theorem throws_findById (id : Value) : Throws ServiceError (AbstractRepository.findById M S env id) := by
  refine Throws.bind (throws_query _) fun found => ?_
  cases found with
  | none => exact Throws.throw (.notFound _)
  | some d => exact Throws.pure d

theorem throws_findOneAndUpdate (filterQuery : Filter) (u : Update) :
    Throws ServiceError (AbstractRepository.findOneAndUpdate M S env filterQuery u) := by
  refine Throws.bind (throws_command _) fun found => ?_
  cases found with
  | none => exact Throws.throw (.notFound _)
  | some d => exact Throws.pure d

theorem throws_findPage (filterQuery : Filter) (options : QueryOptions) :
    Throws ServiceError (AbstractRepository.findPage M S env filterQuery options) :=
  Throws.bind (throws_query _) fun _ => Throws.bind (throws_query _) fun _ => Throws.pure _

theorem atomic_create (dto : Entries) : Atomic (AbstractRepository.create M S env dto) := by
  intro c c' e h
  rcases AbstractRepository.exec_create h with ⟨hsame, -⟩ | ⟨d, -, -, -, hok, -⟩
  · exact hsame
  · cases hok

theorem atomic_findOneAndUpdate (filterQuery : Filter) (u : Update) :
    Atomic (AbstractRepository.findOneAndUpdate M S env filterQuery u) := by
  intro c c' e h
  rcases AbstractRepository.exec_findOneAndUpdate h with
    ⟨hsame, -⟩ | ⟨p, f, d, fields, -, -, -, -, hok, -⟩
  · exact hsame
  · cases hok

/-! ## The handlers -/

/-- A method throws these errors only, and nothing after it has written. -/
structure Clean {σ : Type} (x : Effect σ Thrown α) : Prop where
  throws : Throws ServiceError x
  atomic : Atomic x

/-- A value that JSON has. -/
def Defined (v : Value) : Prop := v ≠ .undefined

/-- A message handler is clean and returns what JSON has. -/
structure Replies (x : Store Value) : Prop extends Clean x where
  returns : Returns Defined x

namespace Clean

variable {β σ : Type}

theorem map {x : Effect σ Thrown α} (f : α → β) (h : Clean x) : Clean (f <$> x) :=
  ⟨h.throws.map f, h.atomic.map f⟩

theorem plain {x : Effect σ Thrown α} (h : Clean x) : Throws Plain x :=
  h.throws.mono ServiceError.plain

theorem replies {x : Store α} (h : Clean x) {f : α → Value} (hf : ∀ a, Defined (f a)) :
    Replies (f <$> x) :=
  { h.map f with returns := Returns.map hf x }

theorem throw (name : String) : Clean (throw (.error name) : Effect σ Thrown α) :=
  ⟨Throws.throw (.other name), Atomic.throw _⟩

theorem pure (a : α) : Clean (pure a : Effect σ Thrown α) := ⟨Throws.pure a, .of_silent fun _ => rfl⟩

theorem bind_silent {x : Effect σ Thrown α} {f : α → Effect σ Thrown β}
    (hx : Throws ServiceError x) (hsilent : Silent x) (hf : ∀ a, Clean (f a)) : Clean (x >>= f) :=
  ⟨hx.bind fun a => (hf a).throws, Atomic.bind_silent hsilent fun a => (hf a).atomic⟩

theorem findById (id : Value) : Clean (AbstractRepository.findById M S env id) :=
  ⟨throws_findById id, .of_silent (AbstractRepository.exec_findById id)⟩

theorem findOne (filterQuery : Filter) : Clean (AbstractRepository.findOne M S env filterQuery) :=
  ⟨throws_query _, .of_silent (AbstractRepository.exec_findOne filterQuery)⟩

theorem findPage (filterQuery : Filter) (options : QueryOptions) :
    Clean (AbstractRepository.findPage M S env filterQuery options) :=
  ⟨throws_findPage _ _, .of_silent (AbstractRepository.exec_findPage filterQuery options)⟩

theorem create (dto : Entries) : Clean (AbstractRepository.create M S env dto) :=
  ⟨throws_command _, atomic_create dto⟩

theorem findOneAndUpdate (filterQuery : Filter) (u : Update) :
    Clean (AbstractRepository.findOneAndUpdate M S env filterQuery u) :=
  ⟨throws_findOneAndUpdate _ _, atomic_findOneAndUpdate _ _⟩

end Clean

theorem toObject_defined (d : Doc) : Defined (toObject S d) := Value.noConfusion

theorem page_defined (page : Page) : Defined (Page.toObject S page) := Value.noConfusion

variable {pattern : String} {dto : Entries} {x : Store Value}

theorem replies_users (h : Users.UsersController.handle M env pattern dto = some x) : Replies x := by
  unfold Users.UsersController.handle at h
  split at h
  · cases h
    exact ((Clean.findById _).map _).replies toObject_defined
  split at h
  · cases h
    apply ((Clean.findOne _).map _).replies
    intro user
    cases user <;> exact Value.noConfusion
  split at h
  · cases h
    exact ((Clean.findPage _ _).map _).replies page_defined
  split at h
  · cases h
    exact ((Clean.findOneAndUpdate _ _).map _).replies toObject_defined
  split at h
  · cases h
    exact ((Clean.findOneAndUpdate _ _).map _).replies toObject_defined
  · cases h

theorem replies_items {patterns : ItemPatterns}
    (h : Items.ItemsController.handle M S env patterns pattern dto = some x) : Replies x := by
  unfold Items.ItemsController.handle at h
  split at h
  · cases h
    exact (Clean.create _).replies toObject_defined
  split at h
  · cases h
    exact (Clean.findById _).replies toObject_defined
  split at h
  · cases h
    exact (Clean.findPage _ _).replies page_defined
  split at h
  · cases h
    exact (Clean.findOneAndUpdate _ _).replies toObject_defined
  split at h
  · cases h
    exact (Clean.findOneAndUpdate _ _).replies toObject_defined
  split at h
  · cases h
    exact (Clean.findPage _ _).replies page_defined
  · cases h

theorem replies_kind (kind : Gateway.ItemKind) (h : kind.handle M env pattern dto = some x) :
    Replies x := by
  cases kind with
  | todos =>
    change Items.TodosController.handle M env pattern dto = some x at h
    unfold Items.TodosController.handle at h
    split at h
    · cases h
      exact (Clean.findPage _ _).replies page_defined
    · exact replies_items h
  | books =>
    change Items.BooksController.handle M env pattern dto = some x at h
    unfold Items.BooksController.handle at h
    split at h
    · cases h
      exact (Clean.findPage _ _).replies page_defined
    split at h
    · cases h
      exact (Clean.findPage _ _).replies page_defined
    · exact replies_items h

end Services

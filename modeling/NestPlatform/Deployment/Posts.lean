-- SUMMARY: The gateway and the posts service side by side: whose the posts are, over whole runs of both.
import NestPlatform.Gateway.Privileges
import NestPlatform.Gateway.References
import NestPlatform.Posts.Answers
import NestPlatform.Posts.Authorship
import NestPlatform.Posts.Bookkeeping

/-!
# Posts beside the gateway

The posts service knows accounts only from the tokens of its requests, which it verifies with the
access secret of the auth service. The two share nothing else.
-/
namespace Deployment

open Js Mongo Nest Common Database Services Effect Transition
open Posts (PostsWorld PostsCall PostsEvent)

/-! ## Requests to either application -/

structure State where
  gateway : Gateway.Log
  posts : PostsWorld

def State.empty : State := ⟨.empty, .initial⟩

/-- The account is stored. -/
def State.Knows (s : State) (id : ObjectId) : Prop := s.gateway.platform.auth.users.get id ≠ none

inductive Request where
  | gateway (x : Gateway.Exchange)
  | posts (x : Posts.Exchange)

section

variable (M : Mongoose) (bcrypt : Auth.Bcrypt) (jwt : Auth.Jwt) (config : Auth.AuthConfig)

def Request.next (s : State) : Request → State
  | .gateway x => { s with gateway := x.next M bcrypt jwt config s.gateway }
  | .posts x => { s with posts := x.next M jwt config s.posts }

def Step (s : State) (request : Request) (s' : State) : Prop :=
  s' = request.next M bcrypt jwt config s

/-- Whichever application verifies a token, the gateway has handed it out. -/
def Genuine (s : State) : Request → Prop
  | .gateway x => Gateway.Genuine jwt config s.gateway x
  | .posts x => Gateway.HandedOut jwt config s.gateway.history x.request.authorization x.clock

/-- Nobody but the service writes the author or the likes of a post. -/
def LeavesPosts (s : State) : Request → Prop
  | .gateway _ => True
  | .posts x => ∀ call, x.call jwt config = some call →
      Posts.KeepsAuthor M s.posts call ∧ Posts.LeavesLikes M s.posts call

def GenuineAndKept (s : State) (request : Request) : Prop :=
  Genuine jwt config s request ∧ LeavesPosts M jwt config s request

end

/-- The author of a post and everybody who likes it have accounts. -/
structure State.Refers (s : State) : Prop where
  authors : ∀ post ∈ s.posts.posts.docs, ∃ id : ObjectId,
    post.fields "userId" = .str id.toString ∧ s.Knows id
  likers : ∀ id, (s.posts.posts.get id).isSome → ∃ users,
    Posts.field id s.posts.posts "likedBy" = .arr users ∧ users.Nodup ∧
      ∀ v ∈ users, ∃ liker : ObjectId, v = .str liker.toString ∧ s.Knows liker

/-! ## Events -/

variable {M : Mongoose} {bcrypt : Auth.Bcrypt} {jwt : Auth.Jwt} {config : Auth.AuthConfig}
variable {s : State}

/-- The user behind an event of the posts API. -/
def userOf : PostsEvent → String
  | .created _ sub => sub
  | .reacted _ _ userId => userId

/-- An event is due to the user of its request. -/
theorem userOf_event {result : Except Thrown Answer} {event : PostsEvent} {e : Posts.UserEndpoint}
    {user : JwtPayload} (h : Posts.eventOf (e.operation user) result = some event) :
    userOf event = user.sub := by
  cases e with
  | create | like | unlike =>
    cases result with
    | error t => cases h
    | ok answer =>
      cases answer with
      | one post =>
        cases h
        rfl
      | optional | page => cases h
  | getUserPosts | update | delete | publish => cases h

/-- A user who likes a post has an event in its history. -/
theorem reacted_of_liked {history : List PostsEvent} {id : ObjectId} {userId : String}
    (h : Posts.liked history id userId = true) :
    ∃ action, PostsEvent.reacted action id userId ∈ history := by
  induction history using List.reverseRecOn with
  | nil => cases h
  | append_singleton history event ih =>
    have hlater : (∃ action, PostsEvent.reacted action id userId ∈ history) →
        ∃ action, PostsEvent.reacted action id userId ∈ history ++ [event] :=
      fun ⟨action, hmem⟩ => ⟨action, List.mem_append_left _ hmem⟩
    cases event with
    | created id' sub =>
      rw [Posts.liked_snoc_created] at h
      exact hlater (ih h)
    | reacted action id' userId' =>
      by_cases hsame : id' = id ∧ userId' = userId
      · obtain ⟨rfl, rfl⟩ := hsame
        exact ⟨action, List.mem_append_right _ (List.mem_singleton_self _)⟩
      · rw [Posts.liked_snoc_reacted, if_neg hsame] at h
        exact hlater (ih h)

/-- The call that a request comes to is that of a reader or of a user whose token was verified. -/
theorem call_cases {x : Posts.Exchange} {call : PostsCall} (h : x.call jwt config = some call) :
    (∃ e, x.Opens e ∧ e.operation = some call.op) ∨
      ∃ user e, x.Admits jwt config user e ∧ call.op = e.operation user := by
  obtain ⟨op, hop, rfl⟩ := Option.map_eq_some_iff.mp h
  rcases @Posts.Exchange.exec_handle_cases .plain jwt config x .empty with
    ⟨e, hopens⟩ | ⟨user, e, hadmits⟩ | ⟨hnone, -⟩
  · rw [Posts.Exchange.operation_opens hopens] at hop
    exact .inl ⟨e, hopens, hop⟩
  · rw [Posts.Exchange.operation_admits hadmits] at hop
    exact .inr ⟨user, e, hadmits, (Option.some.inj hop).symm⟩
  · rw [hnone] at hop
    cases hop

/-! ## The accounts behind the posts -/

/-- What every step keeps: tokens and events name stored accounts, and the posts go back to the
events. -/
structure Accounted (jwt : Auth.Jwt) (s : State) : Prop where
  tokens : Gateway.NamesStored jwt s.gateway
  events : ∀ event ∈ s.posts.history, ∃ id : ObjectId, userOf event = id.toString ∧ s.Knows id
  authors : Posts.AuthorsSound s.posts
  likes : Posts.LikesSound s.posts

theorem Accounted.empty : Accounted jwt .empty := by
  constructor
  · exact .empty
  · intro event hevent
    cases hevent
  · constructor
    · intro post hpost
      cases hpost
    · intro id sub hmem
      cases hmem
  · constructor
    · intro id hid
      cases hid
    · intro id _ userId
      rfl

theorem Accounted.refers (h : Accounted jwt s) : s.Refers := by
  constructor
  · intro post hpost
    obtain ⟨sub, hsub, hcreated⟩ := h.authors.kept post hpost
    obtain ⟨id, hid, hknows⟩ := h.events _ ((hcreated sub).mpr rfl)
    exact ⟨id, hsub.trans (congrArg Value.str hid), hknows⟩
  · intro id hstored
    obtain ⟨users, hlist, hnodup, hmem, -⟩ := h.likes.kept id hstored
    refine ⟨users, hlist, hnodup, ?_⟩
    intro v hv
    obtain ⟨userId, rfl, hliked⟩ := (hmem v).mp hv
    obtain ⟨action, hreacted⟩ := reacted_of_liked hliked
    obtain ⟨liker, hliker, hknows⟩ := h.events _ hreacted
    exact ⟨liker, congrArg Value.str hliker, hknows⟩

/-- A request to the gateway keeps the accounts. -/
theorem Accounted.gateway (h : Accounted jwt s) (hsub : jwt.Carries "sub") (x : Gateway.Exchange) :
    Accounted jwt (Request.next M bcrypt jwt config s (.gateway x)) := by
  have hchange : Gateway.Change M jwt config x s.gateway.platform
      (x.after M bcrypt jwt config s.gateway.platform) := x.change_after s.gateway.platform
  constructor
  · exact h.tokens.next hsub
  · intro event hevent
    obtain ⟨id, hid, hknows⟩ := h.events event hevent
    exact ⟨id, hid, hchange.keepsAccounts hknows⟩
  · exact h.authors
  · exact h.likes

/-- A call of the posts API adds an event of a user with an account. -/
theorem Accounted.posts (h : Accounted jwt s) (hdecodes : jwt.Decodes) {x : Posts.Exchange}
    (hx : GenuineAndKept M jwt config s (.posts x)) :
    Accounted jwt (Request.next M bcrypt jwt config s (.posts x)) := by
  obtain ⟨hgenuine, hleaves⟩ := hx
  change Accounted jwt { s with posts := x.next M jwt config s.posts }
  cases hcall : x.call jwt config with
  | none =>
    rw [Posts.Exchange.next_idle hcall]
    exact h
  | some call =>
    rw [Posts.Exchange.next_call hcall]
    obtain ⟨hauthor, hlikes⟩ := hleaves call hcall
    refine ⟨h.tokens, ?_, h.authors.after hauthor, h.likes.after hlikes⟩
    intro event hevent
    rcases List.mem_append.mp hevent with hold | hnew
    · exact h.events event hold
    · rcases call_cases hcall with ⟨e, -, hop⟩ | ⟨user, e, hadmits, hop⟩
      · cases e with
        | health => cases hop
        | list | findById =>
          obtain ⟨env, op⟩ := call
          cases hop
          cases hnew
      · rw [hop] at hnew
        rw [userOf_event (Option.mem_toList.mp hnew)]
        exact h.tokens.user hdecodes hgenuine hadmits.2.2

/-- In every run of both applications from nothing, with genuine tokens and with bodies that leave
authors and likes alone, every author and everybody who likes a post has an account. -/
theorem run_posts_refer (hsub : jwt.Carries "sub") (hdecodes : jwt.Decodes) {s : State}
    {requests : List Request}
    (h : Run (Meeting (Step M bcrypt jwt config) (GenuineAndKept M jwt config)) .empty requests s) :
    s.Refers := by
  have hstep : ∀ s request s', Accounted jwt s →
      Meeting (Step M bcrypt jwt config) (GenuineAndKept M jwt config) s request s' →
      Accounted jwt s' := by
    rintro s request _ hs ⟨rfl, hcondition⟩
    cases request with
    | gateway x => exact hs.gateway hsub x
    | posts x => exact hs.posts hdecodes hcondition
  exact (h.invariant hstep .empty).refers

/-! ### One post -/

/-- Finn posts with the token of his registration. -/
def finnPosts : Posts.Exchange :=
  Posts.arriving .POST ["posts"] (some "Bearer access")
    [("title", .str "Hello"), ("content", .str "World")]

def afterFinn (request : Request) (s : State) : State :=
  request.next .plain .plain (.single Gateway.finnPayload) Auth.accessOnly s

def finnRegistered : State := afterFinn (.gateway Gateway.finnRegisters) .empty

def finnPosted : State := afterFinn (.posts finnPosts) finnRegistered

theorem genuine_finnRegisters : Genuine (.single Gateway.finnPayload) Auth.accessOnly .empty
    (.gateway Gateway.finnRegisters) := Gateway.genuine_finnRegisters _

/-- The token that Finn got is the one that he shows. -/
theorem handedOut_access (clock : ℤ) : Gateway.HandedOut (.single Gateway.finnPayload)
    Auth.accessOnly finnRegistered.gateway.history (some "Bearer access") clock := by
  intro token payload htoken _
  have htext : Auth.bearerToken (some "Bearer access") = some "access" := by decide
  obtain rfl := Option.some.inj (htext.symm.trans htoken)
  exact ⟨_, List.mem_singleton_self _, ⟨_, rfl, rfl⟩, 201, _, rfl, "accessToken", by decide, rfl⟩

/-- His body names neither an author nor likes. -/
theorem leavesPosts_finnPosts : LeavesPosts .plain (.single Gateway.finnPayload) Auth.accessOnly
    finnRegistered (.posts finnPosts) := by
  intro call hcall
  have hcreate : finnPosts.call (.single Gateway.finnPayload) Auth.accessOnly =
      some ⟨Posts.noon, .create (Auth.claims Gateway.finnPayload)
        (.obj [("title", .str "Hello"), ("content", .str "World")])⟩ := rfl
  obtain rfl := Option.some.inj (hcreate.symm.trans hcall)
  have habsent : ∀ k ∈ "userId" :: Posts.likePaths, k ∉ ["title", "content"] := by decide
  have hnone : ∀ k ∈ "userId" :: Posts.likePaths, ∀ v,
      (k, v) ∉ [("title", Value.str "Hello"), ("content", .str "World")] := by
    intro k hk v hmem
    exact habsent k hk (List.mem_map_of_mem (f := Prod.fst) hmem)
  constructor
  · refine ⟨by decide, ?_⟩
    intro v p w hmem
    exact absurd hmem (hnone _ List.mem_cons_self v)
  · intro k hk
    have hroots : ∀ k ∈ Posts.likePaths,
        k ∉ dottedRoots [("title", .str "Hello"), ("content", .str "World")] := by decide
    refine ⟨hroots k hk, ?_⟩
    intro v p w hmem
    exact absurd hmem (hnone k (List.mem_cons_of_mem _ hk) v)

/-- He likes his own post. -/
def finnLikes : Posts.Exchange :=
  Posts.arriving .PATCH ["posts", Posts.helloId.toString, "like"] (some "Bearer access") []

def finnLiked : State := afterFinn (.posts finnLikes) finnPosted

theorem leavesPosts_finnLikes : LeavesPosts .plain (.single Gateway.finnPayload) Auth.accessOnly
    finnPosted (.posts finnLikes) := by
  intro call hcall
  have hlike : finnLikes.call (.single Gateway.finnPayload) Auth.accessOnly =
      some ⟨Posts.noon, .like Posts.helloId.toString (Auth.claims Gateway.finnPayload)⟩ := rfl
  obtain rfl := Option.some.inj (hlike.symm.trans hcall)
  exact ⟨trivial, trivial⟩

theorem run_posts_refer_finn :
    Posts.field Posts.helloId finnLiked.posts.posts "likedBy" =
        .arr [.str Gateway.finnId.toString] ∧ finnLiked.Refers := by
  refine ⟨by decide +kernel, ?_⟩
  have hposts : GenuineAndKept .plain (.single Gateway.finnPayload) Auth.accessOnly finnRegistered
      (.posts finnPosts) := ⟨handedOut_access _, leavesPosts_finnPosts⟩
  have hlikes : GenuineAndKept .plain (.single Gateway.finnPayload) Auth.accessOnly finnPosted
      (.posts finnLikes) := ⟨handedOut_access _, leavesPosts_finnLikes⟩
  have hregistered : Run (Meeting (Step .plain .plain (.single Gateway.finnPayload) Auth.accessOnly)
      (GenuineAndKept .plain (.single Gateway.finnPayload) Auth.accessOnly)) .empty
      [.gateway Gateway.finnRegisters] finnRegistered :=
    .snoc (.nil _) ⟨rfl, genuine_finnRegisters, trivial⟩
  have hposted : Run (Meeting (Step .plain .plain (.single Gateway.finnPayload) Auth.accessOnly)
      (GenuineAndKept .plain (.single Gateway.finnPayload) Auth.accessOnly)) .empty
      [.gateway Gateway.finnRegisters, .posts finnPosts] finnPosted :=
    hregistered.snoc (l := Request.posts finnPosts) ⟨rfl, hposts⟩
  exact run_posts_refer (Auth.Jwt.single_carries _ "sub") (Auth.Jwt.single_decodes _)
    (hposted.snoc (l := Request.posts finnLikes) ⟨rfl, hlikes⟩)

/-! ## Who changes a post -/

/-- The post is still stored, and what a query shows of it differs only in its likes, unless the
request is that of its author. -/
structure OwnChange (jwt : Auth.Jwt) (config : Auth.AuthConfig) (x : Posts.Exchange)
    (posts posts' : Collection) (id : ObjectId) : Prop where
  stored : (posts'.get id).isSome
  own : ∀ k ∉ Posts.likeFields, Posts.field id posts' k ≠ Posts.field id posts k →
    ∃ user e, x.Admits jwt config user e ∧ Posts.field id posts "userId" = .str user.sub

theorem OwnChange.of_same {x : Posts.Exchange} {posts posts' : Collection} {id : ObjectId}
    (hstored : (posts'.get id).isSome)
    (hsame : ∀ k ∉ Posts.likeFields, Posts.field id posts' k = Posts.field id posts k) :
    OwnChange jwt config x posts posts' id :=
  ⟨hstored, fun k hk hne => absurd (hsame k hk) hne⟩

/-- Writing another post shows this one as it was. -/
theorem OwnChange.put_ne {x : Posts.Exchange} {posts : Collection} {d : Doc} {id : ObjectId}
    (hstored : (posts.get id).isSome) (hne : id ≠ d.id) :
    OwnChange jwt config x posts (posts.put d) id := by
  have hget : (posts.put d).get id = posts.get id := Collection.get_put_ne hne
  apply OwnChange.of_same
  · rw [hget]
    exact hstored
  · intro k _
    unfold Posts.field
    rw [hget]

/-- A like shows the other fields of its post as they were. -/
theorem OwnChange.reacted {x : Posts.Exchange} {env : Env} {posts : Collection} {d : Doc}
    (hd : posts.get d.id = some d) {r : Posts.LikeRequest M d.id} {edited : Option Doc}
    (hedit : r.edit (hydrate PostSchema [] d) = .ok edited) {id : ObjectId}
    (hstored : (posts.get id).isSome) :
    OwnChange jwt config x posts (Posts.rewritten env posts d edited) id := by
  cases edited with
  | none => exact .of_same hstored fun _ _ => rfl
  | some post =>
    dsimp only [Posts.rewritten]
    by_cases hid : id = d.id
    · subst hid
      rw [← Posts.exec_write r env hd hedit]
      rcases r.exec_write_cases env hd (hydrate PostSchema [] d) with
        ⟨_, -, hget, -, -, hrest⟩ | ⟨hkeep, -⟩
      · apply OwnChange.of_same hget
        intro k hk
        rw [hrest k hk, Posts.field_of_get hd]
        exact ite_self _
      · rw [hkeep]
        exact .of_same hstored fun _ _ => rfl
    · exact .put_ne (d := touch env d.id (overwrite PostSchema post d.fields)) hstored hid

/-- What an operation does to a post of another than its user, whose role is that of users. -/
theorem ownChange_of_effect {x : Posts.Exchange} {env : Env} {posts posts' : Collection}
    {op : PostsOperation} {event : Option PostsEvent}
    (heffect : Posts.ApiEffect M env posts op event posts')
    (huser : ∀ id user body, Posts.changeOf env op = some (id, user, body) →
      user.role = UserRole.USER ∧ ∃ e, x.Admits jwt config user e)
    {id : ObjectId} (hstored : (posts.get id).isSome) :
    OwnChange jwt config x posts posts' id := by
  cases heffect with
  | idle => exact .of_same hstored fun _ _ => rfl
  | @created user dto d hnew hconstruct hvalid =>
    have hne : id ≠ d.id := by
      rintro rfl
      rw [hnew] at hstored
      cases hstored
    have hget : (posts.insert d hnew).get id = posts.get id := Collection.get_insert_ne hne
    apply OwnChange.of_same
    · rw [hget]
      exact hstored
    · intro k _
      unfold Posts.field
      rw [hget]
  | @changed _ _ user _ d f fields hchange hid hd howner hf hfields =>
    by_cases hself : id = d.id
    · subst hself
      refine ⟨Collection.isSome_get_put hstored, fun k _ _ => ?_⟩
      obtain ⟨hrole, e, hadmits⟩ := huser _ _ _ hchange
      have hauthor : d.fields "userId" = .str user.sub := by
        apply howner.resolve_right
        rw [hrole]
        decide
      refine ⟨user, e, hadmits, ?_⟩
      rw [Posts.field_of_get hd, Posts.userId_hydrate, hauthor]
    · exact .put_ne (d := touch env d.id fields) hstored hself
  | reacted hreaction hd hedit => exact .reacted hd hedit hstored

/-- A request of somebody whose role is that of users changes no post of another. -/
theorem ownChange_after {x : Posts.Exchange}
    (hrole : ∀ user e, x.Admits jwt config user e → user.role = UserRole.USER) {posts : Collection}
    {id : ObjectId} (hstored : (posts.get id).isSome) :
    OwnChange jwt config x posts (x.after M jwt config posts) id := by
  cases hcall : x.call jwt config with
  | none =>
    rw [Posts.Exchange.after_idle hcall]
    exact .of_same hstored fun _ _ => rfl
  | some call =>
    obtain ⟨event, posts', heffect, hafter⟩ := PostsCall.after_eq M call ⟨posts, []⟩
    have hposts : posts' = x.after M jwt config posts := by
      rw [← Posts.Exchange.after_call hcall ⟨posts, []⟩, hafter]
    subst hposts
    refine ownChange_of_effect heffect ?_ hstored
    intro id user body hchange
    rcases call_cases hcall with ⟨e, -, hop⟩ | ⟨user', e, hadmits, hop⟩
    · cases e with
      | health => cases hop
      | list | findById =>
        obtain ⟨env, op⟩ := call
        cases hop
        cases hchange
    · rw [hop] at hchange
      obtain rfl : user = user' := by cases e <;> cases hchange <;> rfl
      exact ⟨hrole user e hadmits, e, hadmits⟩

/-- In every run of both applications from nothing with genuine tokens, before an update of an
account has been admitted: a request changes no post but the likes of it, unless it is that of the
author. -/
theorem run_own (hrole : jwt.Carries "role") (hdecodes : jwt.Decodes) {requests : List Request}
    (h : Run (Meeting (Step M bcrypt jwt config) (Genuine jwt config)) .empty requests s)
    {x : Posts.Exchange} (hx : Genuine jwt config s (.posts x))
    (hupdated : ¬ Gateway.Updated jwt config s.gateway.history) {id : ObjectId}
    (hstored : (s.posts.posts.get id).isSome) :
    OwnChange jwt config x s.posts.posts (x.after M jwt config s.posts.posts) id := by
  have hstep : ∀ s request s', Gateway.PrivilegesSound jwt config s.gateway →
      Meeting (Step M bcrypt jwt config) (Genuine jwt config) s request s' →
      Gateway.PrivilegesSound jwt config s'.gateway := by
    rintro s request _ hs ⟨rfl, hgenuine⟩
    cases request with
    | gateway x => exact hs.next hrole hdecodes hgenuine
    | posts x => exact hs
  have hsound : Gateway.PrivilegesSound jwt config s.gateway := h.invariant hstep .empty
  refine ownChange_after ?_ hstored
  intro user e hadmits
  exact (hsound.role hdecodes hx hadmits.2.2).resolve_right hupdated

/-- Finn deletes his post. -/
def finnDeletes : Posts.Exchange :=
  Posts.arriving .DELETE ["posts", Posts.helloId.toString] (some "Bearer access") []

theorem run_own_finn : OwnChange (.single Gateway.finnPayload) Auth.accessOnly finnDeletes
    finnPosted.posts.posts
    (finnDeletes.after .plain (.single Gateway.finnPayload) Auth.accessOnly finnPosted.posts.posts)
    Posts.helloId := by
  have hupdated : ¬ Gateway.Updated (.single Gateway.finnPayload) Auth.accessOnly
      finnPosted.gateway.history := by
    rintro ⟨e, he, user, id, dto, hadmits, -⟩
    obtain rfl := List.mem_singleton.mp he
    cases hadmits.1
  have hstored : (finnPosted.posts.posts.get Posts.helloId).isSome = true := by decide +kernel
  have hposts : Genuine (.single Gateway.finnPayload) Auth.accessOnly finnRegistered
      (.posts finnPosts) := handedOut_access _
  have hdeletes : Genuine (.single Gateway.finnPayload) Auth.accessOnly finnPosted
      (.posts finnDeletes) := handedOut_access _
  have hregistered : Run (Meeting (Step .plain .plain (.single Gateway.finnPayload) Auth.accessOnly)
      (Genuine (.single Gateway.finnPayload) Auth.accessOnly)) .empty
      [.gateway Gateway.finnRegisters] finnRegistered :=
    .snoc (.nil _) ⟨rfl, genuine_finnRegisters⟩
  exact run_own (Auth.Jwt.single_carries _ "role") (Auth.Jwt.single_decodes _)
    (hregistered.snoc (l := Request.posts finnPosts) ⟨rfl, hposts⟩) hdeletes hupdated hstored

end Deployment

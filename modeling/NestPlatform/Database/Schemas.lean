-- SUMMARY: The schemas of users, todos, books and posts.
import NestPlatform.Common.Constants
import NestPlatform.Mongo.Schema

/-!
# Schemas

The paths that the four schema classes declare, in their order, and the version
key. The timestamps are not paths here: creating and updating set them.
-/
namespace Database

open Js Mongo Common

def UserSchema : Schema :=
  [{ name := "email", type := .string, required := true, unique := true, lowercase := true,
     trim := true },
   { name := "password", type := .string, required := true, minlength := some 6, select := false },
   { name := "name", type := .string, required := true },
   { name := "roles", type := .stringArray, enum := [UserRole.ADMIN, UserRole.USER, UserRole.GUEST],
     default := .arr [.str UserRole.USER] },
   { name := "lastLoginAt", type := .date, default := .null },
   { name := "deletedAt", type := .date, default := .null },
   versionKey]

def TodoSchema : Schema :=
  [{ name := "userId", type := .string, required := true },
   { name := "title", type := .string, required := true },
   { name := "description", type := .string },
   { name := "status", type := .string, enum := ["pending", "in_progress", "completed"],
     default := .str "pending" },
   { name := "dueDate", type := .date, default := .null },
   { name := "priority", type := .number, default := .nat 0 },
   { name := "deletedAt", type := .date, default := .null },
   versionKey]

def BookSchema : Schema :=
  [{ name := "userId", type := .string, required := true },
   { name := "title", type := .string, required := true },
   { name := "author", type := .string, required := true },
   { name := "description", type := .string },
   { name := "isbn", type := .string },
   { name := "pages", type := .number, default := .nat 0 },
   { name := "publishedDate", type := .date },
   { name := "publisher", type := .string },
   { name := "genres", type := .stringArray, default := .arr [] },
   { name := "rating", type := .number, min := some 0, max := some 5, default := .nat 0 },
   { name := "isRead", type := .boolean, default := .bool false },
   { name := "deletedAt", type := .date, default := .null },
   versionKey]

def PostSchema : Schema :=
  [{ name := "userId", type := .string, required := true },
   { name := "title", type := .string, required := true },
   { name := "content", type := .string, required := true },
   { name := "images", type := .stringArray, default := .arr [] },
   { name := "tags", type := .stringArray, default := .arr [] },
   { name := "status", type := .string, enum := ["draft", "published", "archived"],
     default := .str "draft" },
   { name := "likesCount", type := .number, default := .nat 0 },
   { name := "likedBy", type := .stringArray, default := .arr [] },
   { name := "deletedAt", type := .date, default := .null },
   versionKey]

end Database

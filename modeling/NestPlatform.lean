import NestPlatform.Lib.Effect
import NestPlatform.Lib.Failure
import NestPlatform.Lib.Local
import NestPlatform.Lib.OrderedSet
import NestPlatform.Lib.Pages
import NestPlatform.Lib.ReadModifyWrite
import NestPlatform.Lib.ReadThrough
import NestPlatform.Lib.Register
import NestPlatform.Lib.Relational
import NestPlatform.Lib.Retry
import NestPlatform.Lib.Rounding
import NestPlatform.Lib.Transition
import NestPlatform.Js.Double
import NestPlatform.Js.Increment
import NestPlatform.Js.Json
import NestPlatform.Js.Math
import NestPlatform.Js.PropertyList
import NestPlatform.Js.Text
import NestPlatform.Js.ToNumber
import NestPlatform.Js.Tokens
import NestPlatform.Js.Uri
import NestPlatform.Js.Value
import NestPlatform.Nest.Exception
import NestPlatform.Nest.Router
import NestPlatform.Common.Constants
import NestPlatform.Common.Express
import NestPlatform.Common.Filters
import NestPlatform.Common.Guards
import NestPlatform.Common.Hash
import NestPlatform.Common.Pagination
import NestPlatform.Guards.RolesGuard
import NestPlatform.Filters.Codes
import NestPlatform.Filters.Exceptions
import NestPlatform.Filters.RoundTrip
import NestPlatform.Amqp.Broker
import NestPlatform.Amqp.Setup
import NestPlatform.Amqp.Topic
import NestPlatform.RabbitMQ.Accounting
import NestPlatform.RabbitMQ.Consumer
import NestPlatform.RabbitMQ.Crash
import NestPlatform.RabbitMQ.Delivery
import NestPlatform.RabbitMQ.Guarantees
import NestPlatform.RabbitMQ.Poison
import NestPlatform.RabbitMQ.Setup
import NestPlatform.RabbitMQ.Topology
import NestPlatform.Redis.Counter
import NestPlatform.Redis.Failures
import NestPlatform.Redis.Invalidation
import NestPlatform.Redis.Patterns
import NestPlatform.Redis.RoundTrip
import NestPlatform.Redis.Service
import NestPlatform.SocketIo.Rooms
import NestPlatform.Mongo.Alike
import NestPlatform.Mongo.Collection
import NestPlatform.Mongo.Query
import NestPlatform.Mongo.Schema
import NestPlatform.Mongo.Update
import NestPlatform.Mongo.Validity
import NestPlatform.Database.AbstractRepository
import NestPlatform.Database.Local
import NestPlatform.Database.Repeat
import NestPlatform.Database.Schemas
import NestPlatform.Database.Shown
import NestPlatform.Database.SoftDelete
import NestPlatform.Users.Service
import NestPlatform.Items.Service
import NestPlatform.Posts.Answers
import NestPlatform.Posts.Api
import NestPlatform.Posts.Authorization
import NestPlatform.Posts.Authorship
import NestPlatform.Posts.Bookkeeping
import NestPlatform.Posts.Coherence
import NestPlatform.Posts.Edits
import NestPlatform.Posts.Http
import NestPlatform.Posts.Independence
import NestPlatform.Posts.LikeSet
import NestPlatform.Posts.Likes
import NestPlatform.Posts.Requests
import NestPlatform.Posts.Retries
import NestPlatform.Posts.Service
import NestPlatform.Posts.Visibility
import NestPlatform.Posts.Workflow
import NestPlatform.Auth.Bearer
import NestPlatform.Auth.Concurrent
import NestPlatform.Auth.Controller
import NestPlatform.Auth.Deleted
import NestPlatform.Auth.Failures
import NestPlatform.Auth.Login
import NestPlatform.Auth.Passwords
import NestPlatform.Auth.Provenance
import NestPlatform.Auth.RefreshStrategy
import NestPlatform.Auth.Registration
import NestPlatform.Auth.Revocation
import NestPlatform.Auth.Roles
import NestPlatform.Auth.Secrets
import NestPlatform.Auth.Service
import NestPlatform.Auth.Tokens
import NestPlatform.Services.Failures
import NestPlatform.Services.Operations
import NestPlatform.Services.PageRequests
import NestPlatform.Services.Pagination
import NestPlatform.Services.SoftDelete
import NestPlatform.Services.Validity
import NestPlatform.Notification.Delivery
import NestPlatform.Notification.Draining
import NestPlatform.Notification.Platform
import NestPlatform.Notification.Service
import NestPlatform.Notification.Sockets
import NestPlatform.Notification.Welcome
import NestPlatform.Notification.Worker
import NestPlatform.Gateway.Access
import NestPlatform.Gateway.Answers
import NestPlatform.Gateway.Attribution
import NestPlatform.Gateway.Call
import NestPlatform.Gateway.Coherence
import NestPlatform.Gateway.Http
import NestPlatform.Gateway.Independence
import NestPlatform.Gateway.Isolation
import NestPlatform.Gateway.Items
import NestPlatform.Gateway.Privileges
import NestPlatform.Gateway.Process
import NestPlatform.Gateway.References
import NestPlatform.Gateway.Retries
import NestPlatform.Gateway.Rpc
import NestPlatform.Gateway.Sessions
import NestPlatform.Gateway.Updates
import NestPlatform.Gateway.Users
import NestPlatform.Deployment.Posts

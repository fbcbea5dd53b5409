import OrderMesh.Library.Transition
import OrderMesh.Library.Linearization
import OrderMesh.Inventory.Conservation
import OrderMesh.Inventory.Consumers
import OrderMesh.Inventory.Transactions
import OrderMesh.Inventory.Serialisability
import OrderMesh.Inventory.SameOrder
import OrderMesh.Order.Service
import OrderMesh.Order.Lifecycle
import OrderMesh.Order.CancelRace
import OrderMesh.Gateway.Proxy
import OrderMesh.Order.Publication
import OrderMesh.Shared.Events.Consumer
import OrderMesh.Shared.Events.Fanout
import OrderMesh.Platform.Saga
import OrderMesh.Platform.System
import OrderMesh.Platform.Refinement
import OrderMesh.Platform.Simulation
import OrderMesh.Platform.Invariant
import OrderMesh.Platform.AtRest
import OrderMesh.Inventory.Allocation
import OrderMesh.Platform.Announcement
import OrderMesh.Platform.Choreography
import OrderMesh.Shared.Events.Durability
import OrderMesh.Platform.Causality
import OrderMesh.Library.Decimal
import OrderMesh.Notification.Service
import OrderMesh.Platform.Recipients
import OrderMesh.Shipping.Transactions
import OrderMesh.Library.CacheAside
import OrderMesh.Shared.Cache
import OrderMesh.Platform.Lookups
import OrderMesh.Platform.Requests
import OrderMesh.Library.Relational
import OrderMesh.Platform.Degradation
import OrderMesh.Platform.Isolation
import OrderMesh.Shared.Events.Tracing
import OrderMesh.Shared.Events.Attempts
import OrderMesh.Library.Branching
import OrderMesh.Shared.Events.Cascade
import OrderMesh.Inventory.Reservation
import OrderMesh.Inventory.Release
import OrderMesh.Library.FixedPoint
import OrderMesh.Order.Totals
import OrderMesh.Library.Json
import OrderMesh.Order.Schemas
import OrderMesh.Platform.Replies
import OrderMesh.Library.WaitFor
import OrderMesh.Inventory.Deadlock
import OrderMesh.Library.UniqueKey
import OrderMesh.Platform.Creation
import OrderMesh.Library.Retry
import OrderMesh.Shared.Events.Broker
import OrderMesh.Library.IntText
import OrderMesh.Gateway.Access
import OrderMesh.Gateway.Routes
import OrderMesh.Library.Within
import OrderMesh.Platform.Footprint
import OrderMesh.Platform.Boundary
import OrderMesh.Library.Setup
import OrderMesh.Shared.Events.Startup
import OrderMesh.Library.Settling
import OrderMesh.Platform.Quiescence
import OrderMesh.Library.Lockstep
import OrderMesh.Shared.Events.Dicts
import OrderMesh.Platform.Bus
import OrderMesh.Platform.Junk
import OrderMesh.Library.JsonLines
import OrderMesh.Platform.Feed
import OrderMesh.Shared.Logging
import OrderMesh.Platform.Login
import OrderMesh.Platform.Completion

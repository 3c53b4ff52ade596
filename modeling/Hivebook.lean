import Hivebook.Lib.Transition
import Hivebook.Lib.Parties
import Hivebook.Basic
import Hivebook.Workflow.Connection
import Hivebook.Workflow.Steps
import Hivebook.Workflow.Triggers
import Hivebook.Workflow.Stopping
import Hivebook.Workflow.Lifetime
import Hivebook.Lib.Pool
import Hivebook.Lib.Table
import Hivebook.Database.Queries
import Hivebook.Connectors.Documents
import Hivebook.Connectors.GitHub
import Hivebook.Database.Statement
import Hivebook.Storage
import Hivebook.Connectors.GoogleDocs
import Hivebook.Lib.Protocol
import Hivebook.World
import Hivebook.Activity.Client
import Hivebook.Admission
import Hivebook.Activity.Discovery
import Hivebook.Activity.Erasure
import Hivebook.Activity.Run
import Hivebook.Activity.SyncUnit
import Hivebook.Server.Handlers
import Hivebook.Database.Manifest
import Hivebook.Service.Jobs
import Hivebook.Service.Tombstones
import Hivebook.Service.Visibility
import Hivebook.Service.Slots
import Hivebook.Service.Contents
import Hivebook.Service.Grace
import Hivebook.Service.Disconnect
import Hivebook.Connectors.Listing
import Hivebook.Service.HighWater
import Hivebook.Lib.Orchestration
import Hivebook.Service.Drain
import Hivebook.Service.Reauth
import Hivebook.Database.Catalog
import Hivebook.Lib.Threads
import Hivebook.Service.Discovery
import Hivebook.Service.Outbox
import Hivebook.Service.Overlap
import Hivebook.Service.Reingest
import Hivebook.Service.Refill
import Hivebook.Connectors.Pages
import Hivebook.Service.Attempts
import Hivebook.Connectors.Account
import Hivebook.Service.Shifting
import Hivebook.Service.Cooldown
import Hivebook.Service.Fairness
import Hivebook.Service.WorkerPool
import Hivebook.Database.Standing
import Hivebook.Database.Units
import Hivebook.Server.Readers
import Hivebook.Service.Chunks
import Hivebook.Service.Degraded
import Hivebook.Service.Exposure
import Hivebook.Service.Interrupted
import Hivebook.Service.Sticky
import Hivebook.Service.AtWork
import Hivebook.Service.Resting
import Hivebook.Api.Handlers
import Hivebook.Database.Residence
import Hivebook.Database.Tokens
import Hivebook.Lib.TwoRuns
import Hivebook.Server.Requests
import Hivebook.Service.Collected
import Hivebook.Service.Fleet
import Hivebook.Service.Isolation
import Hivebook.Service.Owed
import Hivebook.Service.Provision
import Hivebook.Service.Reconnect
import Hivebook.Service.Residency
import Hivebook.Service.Rotation
import Hivebook.Service.Selection
import Hivebook.Service.Uninstall
import Hivebook.Workflow.Dropped
import Hivebook.Workflow.Rearming
import Hivebook.Api.Store
import Hivebook.Api.Proxy
import Hivebook.Connectors.Fold
import Hivebook.Lib.Backlog
import Hivebook.Service.Rollup
import Hivebook.Service.Starving
import Hivebook.Storage.Buckets
import Hivebook.Storage.ReadBack
import Hivebook.Connectors.Paged
import Hivebook.Connectors.Replies
import Hivebook.Connectors.Returns
import Hivebook.Service.Issued
import Hivebook.Service.Relaunch
import Hivebook.Api.IdentityCache
import Hivebook.Events.Broker
import Hivebook.Events.Wakeups
import Hivebook.Connectors.Estimates
import Hivebook.Lib.Base64url
import Hivebook.Server.StateToken
import Hivebook.Lib.Paging
import Hivebook.Server.ArtifactPages
import Hivebook.Lib.Grouping
import Hivebook.Metrics.Exporter
import Hivebook.Web.Manage
import Hivebook.Service.Accounts
import Hivebook.Connectors.Rejections
import Hivebook.Service.Rejections
import Hivebook.Service.Throttle
import Hivebook.Connectors.Caps
import Hivebook.Server.Search
import Hivebook.Events.Listen
import Hivebook.Api.Authenticate
import Hivebook.Api.Audit
import Hivebook.Api.Flags
import Hivebook.Lib.Passes
import Hivebook.Workflow.Maintenance
import Hivebook.Service.Throughput
import Hivebook.Service.Resync
import Hivebook.Lib.Purge
import Hivebook.Api.Isolation
import Hivebook.Web.LiveView
import Hivebook.Web.Renewal
import Hivebook.Lib.Outcomes
import Hivebook.Api.Errors

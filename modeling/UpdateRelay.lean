import UpdateRelay.Partition
import UpdateRelay.Settings.Environment
import UpdateRelay.Settings.Json
import UpdateRelay.LogSetup
import UpdateRelay.Lifetime.Tree
import UpdateRelay.Journal.Desk
import UpdateRelay.Broker.Journaled.Cluster
import UpdateRelay.Notice
import UpdateRelay.Service
import UpdateRelay.Proofs.Lines
import UpdateRelay.Proofs.MessagePack.Prefix
import UpdateRelay.Proofs.Backends.Interchange
import UpdateRelay.Proofs.Session.Interactions
import UpdateRelay.Proofs.Mail.Roster
import UpdateRelay.Proofs.Cluster.OneReader
import UpdateRelay.Proofs.Delivery.Exact
import UpdateRelay.Proofs.Delivery.Missed
import UpdateRelay.Proofs.Delivery.Instances
import UpdateRelay.Proofs.Delivery.Direct
import UpdateRelay.Proofs.Cluster.Closing
import UpdateRelay.Proofs.Journal.GroupHandout
import UpdateRelay.Proofs.Session.Delivery
import UpdateRelay.Proofs.Cluster.Confinement
import UpdateRelay.Proofs.Cluster.MissingTopic
import UpdateRelay.Proofs.Cluster.Staying
import UpdateRelay.Proofs.Cluster.Granting
import UpdateRelay.Proofs.Delivery.TopicRemoval
import UpdateRelay.Proofs.Service.Holders
import UpdateRelay.Proofs.Service.Steps
import UpdateRelay.Proofs.Service.Sharing
import UpdateRelay.Proofs.Service.Membership
import UpdateRelay.Proofs.Journal.Wakeups
import UpdateRelay.Proofs.Broker.Publishing
import UpdateRelay.Proofs.Broker.Sweeping
import UpdateRelay.Proofs.Session.Ending
import UpdateRelay.Proofs.Cluster.FailedSubscribe
import UpdateRelay.Proofs.Cluster.Schedule
import UpdateRelay.Proofs.Lifetime.Racing
import UpdateRelay.Proofs.MessagePack.Fields
import UpdateRelay.Proofs.Cluster.Reclosing
import UpdateRelay.Proofs.MalformedLines
import UpdateRelay.Proofs.ChangeCounts
import UpdateRelay.Proofs.Settings.Environment
import UpdateRelay.Proofs.Backends.Capacity
import UpdateRelay.Proofs.Journal.Bookkeeping
import UpdateRelay.Proofs.Journal.Desk
import UpdateRelay.Proofs.Mail.Accounting

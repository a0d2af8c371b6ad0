import BrokerCluster.Text.Words
import BrokerCluster.Text.Number
import BrokerCluster.Text.Utf8
import BrokerCluster.Wire.Line
import BrokerCluster.Wire.Failure
import BrokerCluster.Routing.Topic
import BrokerCluster.Routing.Trie
import BrokerCluster.Routing.Exchange
import BrokerCluster.Routing.Queue
import BrokerCluster.Routing.Registry
import BrokerCluster.Monitoring.Datagram
import BrokerCluster.Naming.Client
import BrokerCluster.Election.Coordinator
import BrokerCluster.Config.Basic
import BrokerCluster.Config.Override
import BrokerCluster.Config.Setting
import BrokerCluster.Config.Validation
import BrokerCluster.Config.Json
import BrokerCluster.Config.Toml.Lexical
import BrokerCluster.Config.Toml.Document
import BrokerCluster.Config.Yaml.Cursor
import BrokerCluster.Config.Yaml.Scalar
import BrokerCluster.Config.Yaml.Token
import BrokerCluster.Config.Yaml.Document
import BrokerCluster.Config.File
import BrokerCluster.Election.Heartbeat
import BrokerCluster.Election.Session
import BrokerCluster.Messaging.Command
import BrokerCluster.Messaging.Service
import BrokerCluster.Election.Cluster
import BrokerCluster.Election.Interleaving
import BrokerCluster.Messaging.Dispatch
import BrokerCluster.Election.Conduct
import BrokerCluster.Broker
import BrokerCluster.CommandLine.Arguments
import BrokerCluster.CommandLine.Program
import BrokerCluster.Wire.Script
import BrokerCluster.Network.Connection
import BrokerCluster.Network.Election
import BrokerCluster.Network.Messaging
import BrokerCluster.Network.Naming
import BrokerCluster.Main
import BrokerCluster.Proofs.Messaging.Delivery
import BrokerCluster.Proofs.Election.BullyRuns
import BrokerCluster.Proofs.Election.RingRuns
import BrokerCluster.Proofs.Messaging.Selections
import BrokerCluster.Proofs.Election.Winners
import BrokerCluster.Proofs.Election.RaftRounds
import BrokerCluster.Proofs.Election.Histories
import BrokerCluster.Proofs.Messaging.Subscribers
import BrokerCluster.Proofs.Election.OwnLeadership
import BrokerCluster.Proofs.Naming.Resolution
import BrokerCluster.Proofs.Messaging.Notices
import BrokerCluster.Proofs.Routing.Order
import BrokerCluster.Proofs.Messaging.Streams
import BrokerCluster.Proofs.Naming.Domains
import BrokerCluster.Proofs.Messaging.PublishOrder
import BrokerCluster.Proofs.Election.Terms
import BrokerCluster.Proofs.Election.RaftOutcomes
import BrokerCluster.Proofs.Messaging.PassedOver
import BrokerCluster.Proofs.Election.Format
import BrokerCluster.Proofs.Routing.Kinds
import BrokerCluster.Election.Watch
import BrokerCluster.Proofs.Election.Pacing
import BrokerCluster.Naming.Server
import BrokerCluster.Proofs.Messaging.Farewell
import BrokerCluster.Proofs.Naming.Farewell
import BrokerCluster.Proofs.Monitoring.Statistics
import BrokerCluster.Proofs.Config.Problems
import BrokerCluster.Election.Correspondence
import BrokerCluster.Proofs.Election.Freshness
import BrokerCluster.Proofs.Election.Contacts

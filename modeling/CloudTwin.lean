import CloudTwin.External
import CloudTwin.JsonLaws
import CloudTwin.Lib.Base64
import CloudTwin.Lib.Table
import CloudTwin.Sqs.Models
import CloudTwin.Sqs.Queues
import CloudTwin.Sqs.Messages
import CloudTwin.Lib.Machine
import CloudTwin.Sqs.Service
import CloudTwin.Sqs.Scan
import CloudTwin.Sqs.Rows
import CloudTwin.Sqs.Attributes
import CloudTwin.Sqs.Reachable
import CloudTwin.Sqs.Handles
import CloudTwin.Sqs.Lease
import CloudTwin.Sqs.Conservation
import CloudTwin.Sqs.StaleHandles
import CloudTwin.Sqs.Deduplication
import CloudTwin.Sqs.GroupOrder
import CloudTwin.Sqs.Clients
import CloudTwin.Sqs.Orphans
import CloudTwin.Sqs.Configuration
import CloudTwin.Cognito.Models
import CloudTwin.Lib.Transaction
import CloudTwin.Cognito.Service
import CloudTwin.Cognito.Requests
import CloudTwin.Cognito.Existence
import CloudTwin.Cognito.Tables
import CloudTwin.Cognito.Codes
import CloudTwin.Cognito.Revocation
import CloudTwin.Cognito.Artefacts
import CloudTwin.Cognito.Logins
import CloudTwin.Cognito.Verification
import CloudTwin.S3.Models
import CloudTwin.S3.Service
import CloudTwin.S3.References
import CloudTwin.S3.Conditional
import CloudTwin.Pubsub.Service
import CloudTwin.Pubsub.Rows
import CloudTwin.Ses.Receiving
import CloudTwin.Ses.Recipients
import CloudTwin.Mailbox.Smtp
import CloudTwin.Mailbox.Delimited
import CloudTwin.Servicebus.Messages
import CloudTwin.Servicebus.PeekLock
import CloudTwin.Servicebus.Isolation
import CloudTwin.Pubsub.History
import CloudTwin.Pubsub.Attachment
import CloudTwin.Kms.Models
import CloudTwin.Kms.Requests
import CloudTwin.Pubsub.Delivery
import CloudTwin.Kms.Lifecycle
import CloudTwin.Kms.Serial
import CloudTwin.Sns.Delivery
import CloudTwin.Kms.Crypto
import CloudTwin.Ses.RuleEdits
import CloudTwin.S3.Versions
import CloudTwin.Lib.Substring
import CloudTwin.S3.Listing
import CloudTwin.S3.VersionListing
import CloudTwin.Gcs.Generations
import CloudTwin.Sns.Subscriptions
import CloudTwin.Sns.Sequence
import CloudTwin.Sns.Deliveries
import CloudTwin.Dynamodb.Updates
import CloudTwin.Dynamodb.Query
import CloudTwin.Ses.Sending
import CloudTwin.Ses.IdentityUpdates
import CloudTwin.Control.Reset
import CloudTwin.S3.Multipart
import CloudTwin.S3.PartNumber
import CloudTwin.S3.Chunked
import CloudTwin.Lib.Utf8
import CloudTwin.S3.UploadListing
import CloudTwin.Mailbox.DotStuffing
import CloudTwin.Sqs.DeduplicationScope
import CloudTwin.Sqs.DeadLetterSources
import CloudTwin.Sns.Filter
import CloudTwin.Dynamodb.TableMap
import CloudTwin.Dynamodb.SetClauses
import CloudTwin.Lib.Glob
import CloudTwin.S3.Cors
import CloudTwin.Lib.ByteRange
import CloudTwin.S3.ByteRange
import CloudTwin.Gcs.Download
import CloudTwin.Azure.Download
import CloudTwin.Lib.Paging
import CloudTwin.Lib.Grouping
import CloudTwin.Gcs.Listing
import CloudTwin.Azure.Listing
import CloudTwin.Gcs.Resumable
import CloudTwin.Lib.Delimiter
import CloudTwin.Gcs.Multipart
import CloudTwin.Lib.Buckets
import CloudTwin.Ses.Outcomes
import CloudTwin.Lib.Lines
import CloudTwin.Ses.Headers
import CloudTwin.S3.PostPolicy
import CloudTwin.Lib.Crc
import CloudTwin.Lib.Offsets
import CloudTwin.Lib.Words
import CloudTwin.Lib.Trie
import CloudTwin.Lib.Framing
import CloudTwin.Lib.Boundaries
import CloudTwin.Gcs.Checksum
import CloudTwin.Sqs.QueueListing
import CloudTwin.Sns.Pages
import CloudTwin.Cognito.Pages
import CloudTwin.Cognito.Lifetimes
import CloudTwin.Cognito.Filters
import CloudTwin.Ses.Pages
import CloudTwin.Proto.QueryJson
import CloudTwin.Bedrock.Config
import CloudTwin.Bedrock.Generator
import CloudTwin.Bedrock.Engine
import CloudTwin.Bedrock.Streaming
import CloudTwin.Dynamodb.KeyConditions
import CloudTwin.Dynamodb.KeyConditionsRead
import CloudTwin.Dynamodb.KeyConditionTokens
import CloudTwin.Dynamodb.KeyConditionClauses
import CloudTwin.Dynamodb.KeyConditionsWritten
import CloudTwin.Lib.Xml
import CloudTwin.Proto.Xml
import CloudTwin.S3.Documents
import CloudTwin.S3.CorsRules
import CloudTwin.S3.Notifications
import CloudTwin.Lib.Segments
import CloudTwin.Cognito.SigningKeys
import CloudTwin.Lib.Percent
import CloudTwin.S3.Addresses
import CloudTwin.Secretsmanager.Service
import CloudTwin.Lib.Simulation
import CloudTwin.Sqs.Batches
import CloudTwin.Lib.Keyed
import CloudTwin.Azure.Store

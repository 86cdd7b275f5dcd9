import Richter.Auth.Browser
import Richter.Auth.Db
import Richter.Auth.Handlers
import Richter.Auth.Justified
import Richter.Auth.Jwt
import Richter.Auth.Renewal
import Richter.Auth.Sessions
import Richter.Auth.Standing
import Richter.Catalog.Db
import Richter.Catalog.Handlers
import Richter.Catalog.Tenancy
import Richter.Catalog.Writers
import Richter.Chunkops.Atomic
import Richter.Chunkops.Chunking
import Richter.Chunkops.Db
import Richter.Chunkops.Editing
import Richter.Chunkops.Effects
import Richter.Chunkops.Requests
import Richter.Chunkops.Service
import Richter.Chunkops.Spans
import Richter.Chunkops.Timeline
import Richter.Chunkops.Transcripts
import Richter.Courses.Confinement
import Richter.Courses.Content
import Richter.Courses.Disclosure
import Richter.Courses.Handlers
import Richter.Courses.InteractionConfig
import Richter.Courses.ListCourses
import Richter.Dashboard.AnalysisTaskTracker
import Richter.Dashboard.KindQuantity
import Richter.Dashboard.LessonTasks
import Richter.Dashboard.RecentAccess
import Richter.Dashboard.RecentVisits
import Richter.Generation.Checkpoint
import Richter.Generation.Chunking
import Richter.Generation.Engine
import Richter.Generation.Items
import Richter.Generation.Plan
import Richter.Generation.ResponseText
import Richter.Generation.SttAnalyze
import Richter.Generation.TtsNormalize
import Richter.Interactions.Accepted
import Richter.Interactions.AtRisk
import Richter.Interactions.AttemptLimit
import Richter.Interactions.AttemptTotals
import Richter.Interactions.BlankGraders
import Richter.Interactions.ChunkAttribution
import Richter.Interactions.Config
import Richter.Interactions.Db
import Richter.Interactions.Editable
import Richter.Interactions.FillBlank
import Richter.Interactions.GeminiAudio
import Richter.Interactions.GradeCache
import Richter.Interactions.GradeLocal
import Richter.Interactions.Graders
import Richter.Interactions.Grading
import Richter.Interactions.HiddenFeedback
import Richter.Interactions.Mapper
import Richter.Interactions.ObjectKeys
import Richter.Interactions.OptionStats
import Richter.Interactions.Placeholders
import Richter.Interactions.Recordings
import Richter.Interactions.Response
import Richter.Interactions.Resubmit
import Richter.Interactions.ScoreBounds
import Richter.Interactions.Session
import Richter.Interactions.Site
import Richter.Interactions.Submission
import Richter.Interactions.SubmitAttempt
import Richter.Interactions.Unanswered
import Richter.Interactions.WatchFraction
import Richter.Kv.CoverageBudget
import Richter.Kv.KVSvc
import Richter.Kv.Segments
import Richter.Kv.Tuple
import Richter.Kv.WatchCoverage
import Richter.Lessons.Accept
import Richter.Lessons.Analysis
import Richter.Lessons.AnalysisLocks
import Richter.Lessons.Attempt
import Richter.Lessons.Content
import Richter.Lessons.Degenerate
import Richter.Lessons.Executors
import Richter.Lessons.Extracted
import Richter.Lessons.FailedRun
import Richter.Lessons.FillEmpty
import Richter.Lessons.Generation
import Richter.Lessons.Overlooked
import Richter.Lessons.Progress
import Richter.Lessons.Remains
import Richter.Lessons.Requests
import Richter.Lessons.Reset
import Richter.Lessons.Resume
import Richter.Lessons.Status
import Richter.Lessons.Store
import Richter.Lessons.Transcribe
import Richter.Lessons.Transcript
import Richter.Lessons.Unique
import Richter.Lessons.UpdateLesson
import Richter.Lessons.UserCap
import Richter.Lessons.Wipe
import Richter.Lessons.Working
import Richter.Lib.Bitmap
import Richter.Lib.ForeignKey
import Richter.Lib.Grouped
import Richter.Lib.Json
import Richter.Lib.JsonScan
import Richter.Lib.JsonText
import Richter.Lib.Lease
import Richter.Lib.LongestRun
import Richter.Lib.Machine
import Richter.Lib.MapM
import Richter.Lib.Path
import Richter.Lib.Prog
import Richter.Lib.Rank
import Richter.Lib.ReadThenWrite
import Richter.Lib.Rewrite
import Richter.Lib.RoundRobin
import Richter.Lib.Scan
import Richter.Lib.Service
import Richter.Lib.Table
import Richter.Lib.Tally
import Richter.Lib.Timeline
import Richter.Lib.Txn
import Richter.Lib.Unmarshal
import Richter.Lib.Utf16
import Richter.Lib.Wire
import Richter.Lib.Words
import Richter.Members.Access
import Richter.Members.Authz
import Richter.Members.CourseAccess
import Richter.Members.CourseMembers
import Richter.Members.Db
import Richter.Members.Grants
import Richter.Members.JoinRequests
import Richter.Members.LastOwner
import Richter.Members.OrgMembers
import Richter.Members.Passed
import Richter.Player.FullSubmit
import Richter.Player.Gate
import Richter.Player.HitTest
import Richter.Player.StudentLessonView
import Richter.Player.WatchProgress
import Richter.Storage.Keys
import Richter.Storage.RateLimiter
import Richter.Storage.Uploads
import Richter.Storage.Urls
import Richter.Svc.Errors
import Richter.TaskQueue.ActiveMap
import Richter.TaskQueue.AgeOrder
import Richter.TaskQueue.Ownership
import Richter.TaskQueue.Rows
import Richter.TaskQueue.Task
import Richter.TaskQueue.Worker
import Richter.Web.Client

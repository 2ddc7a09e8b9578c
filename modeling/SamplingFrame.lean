import SamplingFrame.Expression.Json
import SamplingFrame.Expression.Predicate
import SamplingFrame.Frame.Json
import SamplingFrame.Json.Reader
import SamplingFrame.Record.Json
import SamplingFrame.Main
import SamplingFrame.Proofs.Evaluation
import SamplingFrame.Proofs.Runs
import SamplingFrame.Proofs.Expression.Predicate
import SamplingFrame.Proofs.Expression.Precedence
import SamplingFrame.Proofs.Expression.Check
import SamplingFrame.Proofs.Expression.Course
import SamplingFrame.Proofs.Expression.Grouping
import SamplingFrame.Proofs.Group.Course
import SamplingFrame.Proofs.Group.Check
import SamplingFrame.Proofs.Reads
import SamplingFrame.Proofs.Violation
import SamplingFrame.Proofs.Spelling
import SamplingFrame.Proofs.Scan
import SamplingFrame.Proofs.Session
import SamplingFrame.Proofs.Expression.Agreement
import SamplingFrame.Proofs.Expression.AsGroup
import SamplingFrame.Proofs.Command
import SamplingFrame.Proofs.Record
import SamplingFrame.Proofs.Settings.Layer
import SamplingFrame.Proofs.Rule.Algebra
import SamplingFrame.Proofs.Rule.Separated
import SamplingFrame.Proofs.Rule.Shown
import SamplingFrame.Proofs.Group.Complement
import SamplingFrame.Proofs.Rule.Contents
import SamplingFrame.Proofs.Rule.Digits
import SamplingFrame.Proofs.Rule.Dated
import SamplingFrame.Proofs.Record.Stored

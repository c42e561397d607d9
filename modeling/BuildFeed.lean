import BuildFeed.Board.History
import BuildFeed.Delivery.Frame
import BuildFeed.Delivery.Run
import BuildFeed.Proofs.Board.Growth
import BuildFeed.Proofs.Rehearsal.Courses
import BuildFeed.Proofs.Session.InTurn
import BuildFeed.Proofs.Trace.Plain
import BuildFeed.Protocol.Vocabulary
import BuildFeed.Rehearsal.Comparison
import BuildFeed.Rehearsal.Play
import BuildFeed.Session.Course
import BuildFeed.Trace.Panel
import BuildFeed.Proofs.Session.Origins
import BuildFeed.Proofs.Session.Report
import BuildFeed.Proofs.Session.Chains
import BuildFeed.Proofs.Session.Workers
import BuildFeed.Delivery.Arrivals
import BuildFeed.Delivery.Correspondence
import BuildFeed.Proofs.Rehearsal.SideBySide
import BuildFeed.Proofs.Rehearsal.Carriage
import BuildFeed.Delivery.Consequences
import BuildFeed.Proofs.Delivery.Accounts
import BuildFeed.Proofs.Rehearsal.Accounts
import BuildFeed.Proofs.Delivery.Twins
import BuildFeed.Proofs.Rehearsal.Indifference
import BuildFeed.Proofs.Text.Percent
import BuildFeed.Proofs.Document.Paths
import BuildFeed.Proofs.Session.Files
import BuildFeed.Proofs.Session.Span
import BuildFeed.Proofs.Board.Standing
import BuildFeed.Proofs.Session.Obliging
import BuildFeed.Proofs.Rehearsal.Refusals
import BuildFeed.Proofs.Session.Agreement
import BuildFeed.Proofs.Diagnostic.Ranges
import BuildFeed.Proofs.Delivery.Draining
import BuildFeed.Proofs.Trace.Panel
import BuildFeed.Proofs.Number.Text
import BuildFeed.Proofs.Trace.Faults
import BuildFeed.Proofs.Trace.JsonLines
import BuildFeed.Proofs.Trace.Stamps
import BuildFeed.Proofs.Trace.SameEntries
import BuildFeed.Proofs.Text.Units
import BuildFeed.Proofs.Trace.Shortening

import KingCheck.Main
import KingCheck.Session.Filesystem
import KingCheck.Proofs.Search
import KingCheck.Proofs.Attack.Sightline
import KingCheck.Proofs.Attack.Strikes
import KingCheck.Proofs.Attack.Detection
import KingCheck.Proofs.Text.Utf8
import KingCheck.Proofs.Text.Lines
import KingCheck.Proofs.Board.RoundTrip
import KingCheck.Proofs.Input.Framing
import KingCheck.Proofs.Input.Layout
import KingCheck.Proofs.Input.Opening
import KingCheck.Proofs.Output.Willing
import KingCheck.Proofs.Output.Delivery
import KingCheck.Proofs.Referee.Fate
import KingCheck.Proofs.Referee.Abort
import KingCheck.Proofs.Referee.Skip
import KingCheck.Proofs.Referee.Transition
import KingCheck.Proofs.Referee.History
import KingCheck.Proofs.Referee.Termination
import KingCheck.Proofs.Referee.Halting
import KingCheck.Proofs.Referee.Receipt
import KingCheck.Proofs.Referee.Exchange
import KingCheck.Proofs.Referee.Refusal
import KingCheck.Proofs.Referee.Sentinel
import KingCheck.Proofs.Input.Segments
import KingCheck.Proofs.Output.ReadBack
import KingCheck.Proofs.Input.Groups
import KingCheck.Proofs.Referee.Agreement
import KingCheck.Proofs.Referee.Tally
import KingCheck.Proofs.Referee.Recovery
import KingCheck.Proofs.Board.Kings
import KingCheck.Proofs.Referee.Tightening
import KingCheck.Proofs.Board.KingSquares
import KingCheck.Proofs.Attack.Symmetry
import KingCheck.Proofs.Config.Loading
import KingCheck.Proofs.Session.Assignments
import KingCheck.Proofs.Session.Paths
import KingCheck.Proofs.Session.Composition
import KingCheck.Proofs.Referee.Notes
import KingCheck.Proofs.Referee.Settling
import KingCheck.Proofs.Referee.Audit
import KingCheck.Proofs.Attack.Looks
import KingCheck.Proofs.Attack.Precedence
import KingCheck.Proofs.Referee.Judging
import KingCheck.Proofs.Attack.Visibility
import KingCheck.Proofs.Attack.Defence
import KingCheck.Proofs.Input.Acceptance
import KingCheck.Proofs.Input.Failures
import KingCheck.Proofs.Text.Returns
import KingCheck.Proofs.Board.Texts
import KingCheck.Proofs.Input.Texts
import KingCheck.Proofs.Referee.Sources
import KingCheck.Proofs.Board.Fen
import KingCheck.Proofs.Attack.Walk
import KingCheck.Proofs.Referee.Duration

import TicTacTussle.EventSourcing
import TicTacTussle.PositionalGame
import TicTacTussle.State
import TicTacTussle.Board
import TicTacTussle.Decider
import TicTacTussle.Session
import TicTacTussle.Service
import TicTacTussle.Position
import TicTacTussle.Outcome
import TicTacTussle.Legality
import TicTacTussle.Lifecycle
import TicTacTussle.Answers
import TicTacTussle.Progress
import TicTacTussle.Departure
import TicTacTussle.Rejection
import TicTacTussle.Wire
import TicTacTussle.Bincode
import TicTacTussle.Network
import TicTacTussle.Broker
import TicTacTussle.GameLoop
import TicTacTussle.Client
import TicTacTussle.Replication
import TicTacTussle.Authenticity
import TicTacTussle.Ledger
import TicTacTussle.SharedStore
import TicTacTussle.Redelivery
import TicTacTussle.Staleness
import TicTacTussle.Symmetry
import TicTacTussle.Simulation
import TicTacTussle.Consumer
import TicTacTussle.Publisher
import TicTacTussle.Utf8
import TicTacTussle.UserData
import TicTacTussle.Bounds
import TicTacTussle.Replay
import TicTacTussle.Safety
import TicTacTussle.ReadModel
import TicTacTussle.Schedule
import TicTacTussle.ClientApp
import TicTacTussle.Front
import TicTacTussle.Screen
import TicTacTussle.Trace
import TicTacTussle.Attendance
import TicTacTussle.World
import TicTacTussle.Pipeline
import TicTacTussle.Redundancy
import TicTacTussle.Verdict

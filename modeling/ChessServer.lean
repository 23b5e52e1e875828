import ChessServer.Proofs.Changes
import ChessServer.Proofs.Counts
import ChessServer.Proofs.Leaving
import ChessServer.Proofs.Step
import ChessServer.Results.Recycling
import ChessServer.Results.Authentication
import ChessServer.Results.Authors
import ChessServer.Results.Deadlines
import ChessServer.Results.FrameBounds
import ChessServer.Results.HeadImage
import ChessServer.Results.Leaving
import ChessServer.Results.Owner
import ChessServer.Results.People
import ChessServer.Results.LonePlayer
import ChessServer.Proofs.Ready
import ChessServer.Results.Ready
import ChessServer.Results.Profile
import ChessServer.Results.Registry
import ChessServer.Results.Requests
import ChessServer.Results.Scores
import ChessServer.Results.SqlText
import ChessServer.Results.Stream
import ChessServer.Results.Seats
import ChessServer.Results.Tokens
import ChessServer.Results.Turns
import ChessServer.Results.Captures
import ChessServer.Results.Stranded
import ChessServer.Results.Conservation
import ChessServer.Results.Exchange
import ChessServer.Results.Locking
import ChessServer.Results.Ids
import ChessServer.Results.Queue
import ChessServer.Results.Lookup
import ChessServer.Results.Socket
import ChessServer.Results.Download
import ChessServer.Results.Logins
import ChessServer.Results.Accounts
import ChessServer.Results.Strangers
import ChessServer.Server.Md5
import ChessServer.Results.Digest
import ChessServer.Results.Crashes
import ChessServer.Results.Undos
import ChessServer.Results.MessagePb

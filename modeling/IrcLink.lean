import IrcLink.Bot
import IrcLink.Cli
import IrcLink.Journal
import IrcLink.Main
import IrcLink.Poller
import IrcLink.Script
import IrcLink.Proofs.Bot.Isolation
import IrcLink.Proofs.Bot.Timers
import IrcLink.Proofs.Checked.Bot
import IrcLink.Proofs.Engine.Candidates
import IrcLink.Proofs.Engine.Completions
import IrcLink.Proofs.Engine.Hangup
import IrcLink.Proofs.Engine.Lossless
import IrcLink.Proofs.Engine.Sockets
import IrcLink.Proofs.Engine.Turns
import IrcLink.Proofs.Engine.Wakeups
import IrcLink.Proofs.Ring.Queue
import IrcLink.Proofs.Session.Oversize
import IrcLink.Proofs.Session.Replies
import IrcLink.Proofs.Session.Wording
import IrcLink.Proofs.Engine.Deadlines
import IrcLink.Proofs.Engine.Pacing
import IrcLink.Proofs.Engine.Attempts
import IrcLink.Proofs.Engine.Flush
import IrcLink.Proofs.Bot.Shutdown
import IrcLink.Proofs.Engine.Backpressure
import IrcLink.Proofs.Bot.Announcements
import IrcLink.Proofs.Engine.Waits
import IrcLink.Proofs.Session.Nicks
import IrcLink.Proofs.Session.Rotation
import IrcLink.Proofs.Message.Accessors
import IrcLink.Proofs.World.OneSlot
import IrcLink.Proofs.Session.Handlers
import IrcLink.Proofs.Config.Content
import IrcLink.Proofs.Engine.Spans

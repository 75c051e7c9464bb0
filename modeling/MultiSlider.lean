import MultiSlider.Lib.Machine
import MultiSlider.Lib.Cyclic
import MultiSlider.Lib.OrderedMap
import MultiSlider.Lib.Window
import MultiSlider.Lib.LastWriter
import MultiSlider.Lib.Slots
import MultiSlider.Lib.Framing
import MultiSlider.Session.Message
import MultiSlider.Session.SessionActor
import MultiSlider.Session.Session
import MultiSlider.Session.Filter
import MultiSlider.Session.Arrivals
import MultiSlider.Session.Handlers
import MultiSlider.Session.Steps
import MultiSlider.Session.Relay
import MultiSlider.Session.Turns
import MultiSlider.Session.Net
import MultiSlider.Session.Invariant
import MultiSlider.Session.Removal
import MultiSlider.Session.AtMostOnce
import MultiSlider.Session.Delivery
import MultiSlider.Session.Recovery
import MultiSlider.Session.Nulls
import MultiSlider.Session.Barrier
import MultiSlider.Session.Resend
import MultiSlider.Session.Registers
import MultiSlider.Session.Broadcasts
import MultiSlider.Session.Clocks
import MultiSlider.Session.Backend
import MultiSlider.Session.Slots
import MultiSlider.Session.Snapshots
import MultiSlider.Session.Isolation
import MultiSlider.Session.Abandoned
import MultiSlider.Session.Failures
import MultiSlider.Session.Indices
import MultiSlider.Session.Timeouts
import MultiSlider.Session.Datagrams
import MultiSlider.Session.Agreement
import MultiSlider.Session.Startup
import MultiSlider.Session.Calls
import MultiSlider.Session.ClockSync
import MultiSlider.Session.Silence
import MultiSlider.Session.Polling
import MultiSlider.Session.PrivateData
import MultiSlider.Lobby.Message
import MultiSlider.Lobby.Depot
import MultiSlider.Lobby.LobbyActor2
import MultiSlider.Lobby.Room
import MultiSlider.Lobby.Views
import MultiSlider.Lobby.Client
import MultiSlider.Lobby.Server
import MultiSlider.Lobby.Registry
import MultiSlider.Lobby.Authority
import MultiSlider.Lobby.Lobby
import MultiSlider.Lobby.Service
import MultiSlider.Lobby.Ghosts
import MultiSlider.Lobby.Framing
import MultiSlider.Lobby.Frontend
import MultiSlider.Lobby.Directory
import MultiSlider.Lobby.Members
import MultiSlider.Lobby.Announcements
import MultiSlider.Lobby.Lifecycle
import MultiSlider.Lobby.Requests
import MultiSlider.Lobby.Wired
import MultiSlider.Lobby.Dispatch
import MultiSlider.Lobby.Seats
import MultiSlider.Lobby.Hosts
import MultiSlider.Lobby.RoomInfo
import MultiSlider.Lobby.Parameters
import MultiSlider.Session.Quits
import MultiSlider.Session.Outstanding
import MultiSlider.Lib.SortedMap
import MultiSlider.Lib.JsonText
import MultiSlider.Jsonxx.Stream
import MultiSlider.Jsonxx.Parser
import MultiSlider.Jsonxx.Reading
import MultiSlider.Jsonxx.Totality
import MultiSlider.Jsonxx.Truncated
import MultiSlider.Jsonxx.Writer
import MultiSlider.Jsonxx.Integers
import MultiSlider.Session.Wire
import MultiSlider.Session.Texts
import MultiSlider.Lobby.Accounts
import MultiSlider.Lobby.Admission
import MultiSlider.Lobby.Listing
import MultiSlider.Lobby.Wire
import MultiSlider.Lobby.Answers
import MultiSlider.Site.Site
import MultiSlider.Site.Crews
import MultiSlider.Site.Launch
import MultiSlider.Site.Launches
import MultiSlider.Lib.Fairness
import MultiSlider.Site.Rest

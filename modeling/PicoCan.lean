import PicoCan.Calls.Program
import PicoCan.Calls.Runs
import PicoCan.Calls.Fifo
import PicoCan.Calls.Text
import PicoCan.Calls.Relay
import PicoCan.Calls.Simulation
import PicoCan.Can.Driver
import PicoCan.Can.Bridge
import PicoCan.Can.Prints
import PicoCan.Can.Format
import PicoCan.Can.System
import PicoCan.Can.Threads
import PicoCan.Can.Requests
import PicoCan.Can.Config
import PicoCan.Can.Lock
import PicoCan.Can.Progress
import PicoCan.Can.Pipeline
import PicoCan.Can.Receive
import PicoCan.Can.RoundTrip
import PicoCan.Can.Replies
import PicoCan.Can.Verdict
import PicoCan.Can.Overread
import PicoCan.Can.Objects
import PicoCan.Can.Acceptance
import PicoCan.Can.Printers
import PicoCan.Http.Storage
import PicoCan.Http.Accept
import PicoCan.Http.Client
import PicoCan.Http.Sessions
import PicoCan.Http.Exclusive
import PicoCan.Http.Transparent
import PicoCan.Usb.Link
import PicoCan.Usb.Recovery
import PicoCan.Usb.Led
import PicoCan.Usb.Heartbeat
import PicoCan.Http.HeaderText
import PicoCan.Http.Mount
import PicoCan.Http.Upload
import PicoCan.Http.Digest
import PicoCan.Http.Lookup
import PicoCan.Http.ContentLength
import PicoCan.Http.Download
import PicoCan.Http.Response
import PicoCan.Http.Answered
import PicoCan.Http.Page
import PicoCan.Http.Visits
import PicoCan.Http.RoundTrip
import PicoCan.Http.Base64
import PicoCan.Http.Announce
import PicoCan.Http.FailedUpload
import PicoCan.Http.Segmentation
import PicoCan.Can.Gateway
import PicoCan.Device.Machine
import PicoCan.Device.Sessions
import PicoCan.Device.Bridge
import PicoCan.Device.Safety
import PicoCan.Device.Waiting
import PicoCan.Http.Handshake
import PicoCan.Http.Partial
import PicoCan.Http.Service
import PicoCan.Device.Service
import PicoCan.Device.Announcing
import PicoCan.Device.Serving
import PicoCan.Calls.Transcript
import PicoCan.Http.Alone
import PicoCan.Http.Pages
import PicoCan.Device.Storage
import PicoCan.Device.Pages

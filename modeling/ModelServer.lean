import ModelServer.Worker.Batcher
import ModelServer.Shared.Proto
import ModelServer.Worker.Steps
import ModelServer.Worker.Fifo
import ModelServer.Worker.Limits
import ModelServer.Worker.Packing
import ModelServer.Gateway.Capacity
import ModelServer.Gateway.Client
import ModelServer.Gateway.Config
import ModelServer.Gateway.Fairness
import ModelServer.Gateway.Gauges
import ModelServer.Gateway.Health
import ModelServer.Gateway.HealthHistory
import ModelServer.Gateway.Hysteresis
import ModelServer.Gateway.Reservations
import ModelServer.Gateway.Retry
import ModelServer.Gateway.Unavailable
import ModelServer.Gateway.Traffic
import ModelServer.Gateway.NotReady
import ModelServer.Gateway.Metrics
import ModelServer.Gateway.Refusal
import ModelServer.Library.Slices
import ModelServer.Worker.Predictions
import ModelServer.Worker.Isolation
import ModelServer.Worker.Model
import ModelServer.Worker.Shutdown
import ModelServer.Agreement
import ModelServer.Compatibility
import ModelServer.Cluster
import ModelServer.Scripts.DownloadModel
import ModelServer.Scripts.Throughput
import ModelServer.EndToEnd
import ModelServer.Deadlines
import ModelServer.Gateway.ResponseTime
import ModelServer.Gateway.Accounting
import ModelServer.Gateway.Channels
import ModelServer.Gateway.Detection
import ModelServer.Gateway.Draining
import ModelServer.Worker.Accounting
import ModelServer.Worker.Sojourn

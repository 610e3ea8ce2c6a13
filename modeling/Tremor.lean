import Tremor.Prelude
import Tremor.Value.Basic
import Tremor.Value.Se
import Tremor.Value.Se.Errors
import Tremor.Value.Se.RoundTrip
import Tremor.Value.Se.Compound
import Tremor.Base64.Engine
import Tremor.Base64.Preprocessor
import Tremor.Http.SurfClients
import Tremor.Http.Auth
import Tremor.Http.Client
import Tremor.Http.Connector
import Tremor.Http.Dispatch
import Tremor.Http.Delivery
import Tremor.Http.Lifecycle

import CrosPlatform.Text.Decimal
import CrosPlatform.HwsecHostUtils.Version
import CrosPlatform.HwsecHostUtils.Artifacts
import CrosPlatform.ChromeosConfig.MergeBackfilled
import CrosPlatform.Biod.Percentile
import CrosPlatform.Biod.Sampler
import CrosPlatform.Biod.Expectation
import CrosPlatform.Biod.Runner
import CrosPlatform.Biod.StudyServe
import CrosPlatform.Json.Value
import CrosPlatform.Json.Encode
import CrosPlatform.Json.Decode
import CrosPlatform.Json.Lexical
import CrosPlatform.Json.RoundTrip
import CrosPlatform.Json.Sound
import CrosPlatform.Camera.TrailingComma
import CrosPlatform.Camera.Config
import CrosPlatform.Camera.FakeHal
import CrosPlatform.Camera.Readable
import CrosPlatform.Camera.Registry
import CrosPlatform.Secagentd.GenerateEbpf
import CrosPlatform.Secagentd.LinuxBanner

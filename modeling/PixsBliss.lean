import PixsBliss.Lib.Async
import PixsBliss.Lib.Entries
import PixsBliss.Lib.Linked
import PixsBliss.Lib.Store
import PixsBliss.Lib.Utf16
import PixsBliss.Lib.Flight
import PixsBliss.Lib.Turns
import PixsBliss.Lib.Parts
import PixsBliss.Lib.Families
import PixsBliss.Lib.Memo
import PixsBliss.Lib.Components
import PixsBliss.Lib.Calls
import PixsBliss.Lib.Traces
import PixsBliss.Lib.LastOutcome
import PixsBliss.Lib.Flags
import PixsBliss.Lib.Pages
import PixsBliss.Lib.Changes
import PixsBliss.Lib.IntLiteral
import PixsBliss.Lib.Uri
import PixsBliss.Lib.KeyOrder
import PixsBliss.Lib.Gaps
import PixsBliss.Lib.Calendar
import PixsBliss.Lib.DateText
import PixsBliss.Lib.Iso8601
import PixsBliss.Lib.JsonText
import PixsBliss.Models.Json
import PixsBliss.Models.Wallpaper
import PixsBliss.Models.RoundTrip
import PixsBliss.Models.FromFirestore
import PixsBliss.Models.FromLocalApi
import PixsBliss.Models.ImageFields
import PixsBliss.Services.Cache
import PixsBliss.Services.CacheOrder
import PixsBliss.Services.CacheContents
import PixsBliss.Services.CacheAge
import PixsBliss.Services.CacheWriters
import PixsBliss.Services.CacheCommit
import PixsBliss.Services.CacheText
import PixsBliss.Services.PremiumService
import PixsBliss.Services.PaymentAttribution
import PixsBliss.Services.FirestoreService
import PixsBliss.Services.FirestoreCounters
import PixsBliss.Services.PexelsApiService
import PixsBliss.Services.PexelsPhotos
import PixsBliss.Services.UnlockStore
import PixsBliss.Services.AdMobService
import PixsBliss.Services.UpdateService
import PixsBliss.Services.CloudinaryService
import PixsBliss.Services.CloudinaryUrls
import PixsBliss.Services.CloudinaryTransform
import PixsBliss.Services.FirestoreWallpapers
import PixsBliss.Services.UpdateCheck
import PixsBliss.Services.DailyImage
import PixsBliss.Providers.FirestoreNotifier
import PixsBliss.Providers.AsyncValues
import PixsBliss.Providers.OfflineCopy
import PixsBliss.Providers.PexelsFeed
import PixsBliss.Providers.FeedFlight
import PixsBliss.Providers.FeedPages
import PixsBliss.Providers.PexelsCategory
import PixsBliss.Providers.FixedResults
import PixsBliss.Providers.PexelsSearch
import PixsBliss.Providers.LatestCall
import PixsBliss.Providers.SearchLatest
import PixsBliss.Providers.FeedLoadMore
import PixsBliss.Providers.Provenance
import PixsBliss.Providers.SharedCache
import PixsBliss.Providers.AdMobNotifier
import PixsBliss.Providers.AdCount
import PixsBliss.Providers.WallpapersNotifier
import PixsBliss.Providers.WallpaperRepository
import PixsBliss.Providers.FeedRefresh
import PixsBliss.Providers.SearchNotifier
import PixsBliss.Providers.CategoriesNotifier
import PixsBliss.Providers.ErrorField
import PixsBliss.Pages.ExploreTab
import PixsBliss.Pages.SplashScreen
import PixsBliss.Pages.UpdatePage
import PixsBliss.Pages.UpdateInstall
import PixsBliss.Pages.UpdateCard
import PixsBliss.Pages.ButtonAnimation
import PixsBliss.Pages.WallpaperDetailPage
import PixsBliss.Pages.DownloadRuns
import PixsBliss.Pages.DisposedPage
import PixsBliss.Pages.PremiumFlow
import PixsBliss.Pages.FavoritesTab
import PixsBliss.Pages.ExploreGrid
import PixsBliss.Pages.ExploreFrame
import PixsBliss.Pages.CategoriesTab
import PixsBliss.Pages.CategoryTiles
import PixsBliss.Pages.CategoryPage
import PixsBliss.Pages.FirestorePage
import PixsBliss.Pages.DiscoverTab
